import CantoScan.Proofs.LexemeReach
import CantoScan.Proofs.Tiling

/-! The tokens of unread text without the one at the end, as a list that grows with the scan. Where the
scan begins among the blanks in front of a lexeme makes no difference. -/

namespace CantoScan.Proofs.TokenStream
open TableRules LexemeReach ScanReading Tiling

def innerFrom (table : SymbolTable) (unread : Unread) : List Token :=
  (table.tokensFrom unread).1.filter (!·.isEnd)

def innerOf (table : SymbolTable) (text : List Char) : List Token := innerFrom table ⟨.origin, text⟩

variable {table : SymbolTable} {unread : Unread}

theorem innerTokens_eq (table : SymbolTable) (source : String) :
    innerTokens table source = innerOf table source.toList :=
  rfl

theorem tokenAt_eq {position : Position} {c : Char} {rest : List Char} {lexeme : Lexeme}
    (read : table.lexeme c rest = lexeme) :
    table.tokenAt position c rest =
      (⟨lexeme.kind, String.ofList lexeme.text, .between position (position.after lexeme.text)⟩,
        ⟨position.after lexeme.text, lexeme.rest⟩) := by
  rw [SymbolTable.tokenAt, read]

theorem innerFrom_of_blank (done : unread.skipBlanks.text = []) : innerFrom table unread = [] := by
  rw [innerFrom, tokensFrom_of_blank done]
  rfl

theorem innerFrom_of_nil (position : Position) : innerFrom table ⟨position, []⟩ = [] :=
  innerFrom_of_blank rfl

theorem innerFrom_of_lexeme (sound : Sound table) {c : Char} {rest : List Char}
    (front : unread.skipBlanks.text = c :: rest) :
    innerFrom table unread =
      (table.tokenAt unread.skipBlanks.position c rest).1 ::
        innerFrom table (table.tokenAt unread.skipBlanks.position c rest).2 := by
  have inner := isEnd_tokenAt sound unread.skipBlanks.position rest (isBlank_of_skipBlanks front)
  rw [innerFrom, tokensFrom_of_lexeme sound front, List.filter_cons_of_pos (by simp [inner])]
  rfl

theorem offset_le_skipBlanks (unread : Unread) :
    unread.position.offset ≤ unread.skipBlanks.position.offset := by
  rw [Unread.skipBlanks, Position.after_offset]
  exact Nat.le_add_right ..

theorem extent_of_mem (sound : Sound table) {token : Token} (member : token ∈ innerFrom table unread) :
    unread.skipBlanks.position.offset ≤ token.span.start ∧ token.span.start ≤ token.span.stop := by
  induction unread using scan_induction table with
  | blank unread done =>
    rw [innerFrom_of_blank done] at member
    cases member
  | lexeme unread c rest front ih =>
    rw [innerFrom_of_lexeme sound front] at member
    rcases List.mem_cons.mp member with rfl | later
    · rw [start_tokenAt, stop_tokenAt]
      exact ⟨Nat.le_refl _, Nat.le_add_right ..⟩
    · obtain ⟨further, ordered⟩ := ih later
      replace further := Nat.le_trans (offset_le_skipBlanks _) further
      rw [tokenAt_eq rfl, Position.after_offset] at further
      exact ⟨by omega, ordered⟩

theorem tokensFrom_congr {first second : Unread} (same : first.skipBlanks = second.skipBlanks) :
    table.tokensFrom first = table.tokensFrom second := by
  have step : table.next first = table.next second := by simp only [SymbolTable.next, same]
  cases final : (table.next second).1.isEnd with
  | true =>
    rw [SymbolTable.tokensFrom_of_end final, SymbolTable.tokensFrom_of_end (step ▸ final), step]
  | false =>
    rw [SymbolTable.tokensFrom_of_more final, SymbolTable.tokensFrom_of_more (step ▸ final), step]

section Blanks
variable (position : Position) {blanks : List Char} (blank : ∀ c ∈ blanks, Text.isBlank c = true)
include blank

private theorem skipBlanks_append (text : List Char) :
    Unread.skipBlanks ⟨position, blanks ++ text⟩ = Unread.skipBlanks ⟨position.after blanks, text⟩ := by
  simp only [Unread.skipBlanks, Text.dropBlanks, List.takeWhile_append_of_pos blank,
    List.dropWhile_append_of_pos blank, Position.after_append]

theorem skipBlanks_of_blank :
    Unread.skipBlanks ⟨position, blanks⟩ = ⟨position.after blanks, []⟩ := by
  have skipped := skipBlanks_append position blank []
  rwa [List.append_nil] at skipped

private theorem skipBlanks_append_lexeme {c : Char} (visible : Text.isBlank c = false) (rest : List Char) :
    Unread.skipBlanks ⟨position, blanks ++ c :: rest⟩ = ⟨position.after blanks, c :: rest⟩ := by
  rw [skipBlanks_append position blank]
  simp [Unread.skipBlanks, Text.dropBlanks, visible]

theorem innerFrom_append_blank (table : SymbolTable) (text : List Char) :
    innerFrom table ⟨position, blanks ++ text⟩ = innerFrom table ⟨position.after blanks, text⟩ := by
  rw [innerFrom, innerFrom, tokensFrom_congr (skipBlanks_append position blank text)]

/-- Behind blanks the scan goes on with the lexeme that stands there. -/
theorem innerFrom_append_lexeme (sound : Sound table) {c : Char} {rest : List Char} {lexeme : Lexeme}
    (visible : Text.isBlank c = false) (read : table.lexeme c rest = lexeme) :
    innerFrom table ⟨position, blanks ++ c :: rest⟩ =
      let start := position.after blanks
      let stop := start.after lexeme.text
      ⟨lexeme.kind, String.ofList lexeme.text, .between start stop⟩ ::
        innerFrom table ⟨stop, lexeme.rest⟩ := by
  have place := skipBlanks_append_lexeme position blank visible rest
  rw [innerFrom_of_lexeme sound (congrArg Unread.text place), place, tokenAt_eq read]

end Blanks

/-- Unread text is blanks and then a lexeme, or nothing but blanks. -/
theorem text_eq (unread : Unread) :
    ∃ blanks, (∀ c ∈ blanks, Text.isBlank c = true) ∧ unread.text = blanks ++ unread.skipBlanks.text ∧
      unread.skipBlanks.position = unread.position.after blanks :=
  ⟨unread.text.takeWhile Text.isBlank, fun _ => List.mem_takeWhile_imp,
    List.takeWhile_append_dropWhile.symm, rfl⟩

theorem skipBlanks_skipBlanks (unread : Unread) : unread.skipBlanks.skipBlanks = unread.skipBlanks := by
  obtain ⟨blanks, blank, whole, place⟩ := text_eq unread
  have skipped := skipBlanks_append unread.position blank unread.skipBlanks.text
  rw [← whole, ← place] at skipped
  exact skipped.symm

section Behind
variable (behind : List Char)

theorem innerFrom_append_of_blank (done : unread.skipBlanks.text = []) :
    innerFrom table ⟨unread.position, unread.text ++ behind⟩ =
      innerFrom table ⟨unread.position.after unread.text, behind⟩ := by
  obtain ⟨blanks, blank, whole, _⟩ := text_eq unread
  rw [done, List.append_nil] at whole
  rw [whole, innerFrom_append_blank _ blank]

/-- A lexeme is read as it is without the text behind, if that may follow it. -/
theorem innerFrom_append_of_lexeme (sound : Sound table) {c : Char} {rest : List Char}
    (front : unread.skipBlanks.text = c :: rest)
    (follows : Follows (table.lexeme c rest) ((table.lexeme c rest).rest ++ behind)) :
    innerFrom table ⟨unread.position, unread.text ++ behind⟩ =
      let step := table.tokenAt unread.skipBlanks.position c rest
      step.1 :: innerFrom table ⟨step.2.position, step.2.text ++ behind⟩ := by
  obtain ⟨blanks, blank, whole, place⟩ := text_eq unread
  obtain ⟨body, text, left⟩ := lexeme_text_cons table c rest
  have moved := lexeme_append sound text left follows
  have visible := isBlank_of_skipBlanks front
  have behindToo : unread.text ++ behind =
      blanks ++ c :: (body ++ ((table.lexeme c rest).rest ++ behind)) := by
    rw [whole, front, List.append_assoc, List.cons_append, ← List.append_assoc body, ← left]
  rw [behindToo, innerFrom_append_lexeme unread.position blank sound visible moved, ← text, ← place]
  rfl

end Behind

/-- Where unread text ends does not depend on how much of it has been read. -/
theorem after_tokenAt (table : SymbolTable) {c : Char} {rest : List Char}
    (front : unread.skipBlanks.text = c :: rest) :
    let behind := (table.tokenAt unread.skipBlanks.position c rest).2
    behind.position.after behind.text = unread.position.after unread.text := by
  obtain ⟨blanks, _, whole, place⟩ := text_eq unread
  rw [whole, front, Position.after_append, ← place, ← table.lexeme_text_append_rest c rest,
    Position.after_append]
  rfl

end CantoScan.Proofs.TokenStream
