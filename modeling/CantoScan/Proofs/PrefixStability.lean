import CantoScan.Proofs.TokenStream

/-! How far a scan looks ahead. A token is settled by the source up to one character behind it, so two
sources that begin alike have the same tokens up to the last one that ends before they part. -/

namespace CantoScan.Proofs.PrefixStability
open TableRules LexemeReach ScanReading Tiling TokenStream

private theorem exists_append_of_take {front behind text : List Char} {n : Nat}
    (agree : (front ++ behind).take n = text.take n) (early : front.length < n) :
    ∃ after, text = front ++ after ∧ after.head? = behind.head? ∧
      behind.take (n - front.length) = after.take (n - front.length) := by
  have begins : text.take front.length = front := by
    have shorter := congrArg (List.take front.length) agree
    rw [List.take_take, List.take_take, Nat.min_eq_left (Nat.le_of_lt early), List.take_left] at shorter
    exact shorter.symm
  have further : behind.take (n - front.length) = (text.drop front.length).take (n - front.length) := by
    have later := congrArg (List.drop front.length) agree
    rwa [List.drop_take, List.drop_take, List.drop_left] at later
  have next : (text.drop front.length).head? = behind.head? := by
    have first := congrArg List.head? further
    rw [List.head?_take, List.head?_take, if_neg (by omega), if_neg (by omega)] at first
    exact first.symm
  refine ⟨text.drop front.length, ?_, next, further⟩
  exact (List.take_append_drop front.length text).symm.trans (congrArg (· ++ _) begins)

private theorem getElem?_innerFrom_of_take {table : SymbolTable} (sound : Sound table) (unread : Unread)
    {text : List Char} {n index : Nat} {token : Token} (agree : unread.text.take n = text.take n)
    (found : (innerFrom table unread)[index]? = some token)
    (early : token.span.stop < unread.position.offset + n) :
    (innerFrom table ⟨unread.position, text⟩)[index]? = some token := by
  -- Both texts are scanned at once: as long as they agree on a token and one character more, they share it.
  induction unread using scan_induction table generalizing text n index with
  | blank unread done =>
    rw [innerFrom_of_blank done] at found
    cases found
  | lexeme unread c rest front ih =>
    obtain ⟨blanks, blank, whole, place⟩ := text_eq unread
    obtain ⟨body, literal, left⟩ := lexeme_text_cons table c rest
    rw [innerFrom_of_lexeme sound front] at found
    let behind := (table.tokenAt unread.skipBlanks.position c rest).2
    have offset : behind.position.offset = unread.position.offset + (blanks ++ c :: body).length := by
      rw [show behind.position = unread.skipBlanks.position.after _ from rfl, place, literal,
        ← Position.after_append, Position.after_offset]
    -- No token ends before the first one does, so the texts agree up to the character behind the first.
    have reached : behind.position.offset ≤ token.span.stop := by
      cases index with
      | zero =>
        obtain rfl := Option.some.inj found
        exact Nat.le_refl _
      | succ index =>
        obtain ⟨start, ordered⟩ := extent_of_mem sound (List.mem_of_getElem? found)
        exact Nat.le_trans (offset_le_skipBlanks behind) (Nat.le_trans start ordered)
    have within : unread.text = (blanks ++ c :: body) ++ (table.lexeme c rest).rest := by
      rw [whole, front, List.append_assoc, List.cons_append, ← left]
    rw [within] at agree
    obtain ⟨after, rfl, next, further⟩ := exists_append_of_take agree (by omega)
    have moved := lexeme_append sound literal left (.same next)
    have tokens := innerFrom_append_lexeme unread.position blank sound (isBlank_of_skipBlanks front) moved
    have later : token.span.stop < behind.position.offset + (n - (blanks ++ c :: body).length) := by omega
    rw [List.append_assoc, List.cons_append, tokens, ← place, ← literal]
    cases index with
    | zero => exact found
    | succ index => exact ih further found later

/-- Under every table that can be made, a token that ends before the first `n` characters do is the same
token, at the same index, of every source that begins with these characters. -/
theorem getElem?_tokenize_of_take {table : SymbolTable} (obtained : Obtainable table)
    {first second : String} {n : Nat} (agree : first.toList.take n = second.toList.take n)
    {index : Nat} {token : Token} (found : (table.tokenize first)[index]? = some token)
    (inner : token.kind ≠ .endOfInput) (early : token.span.stop < n) :
    (table.tokenize second)[index]? = some token := by
  have sound := obtained.sound
  obtain ⟨tokens, _⟩ := tokenize_tiles sound first
  obtain ⟨others, _⟩ := tokenize_tiles sound second
  rw [tokens] at found
  rw [others]
  have here : (innerTokens table first)[index]? = some token := by
    rcases Nat.lt_or_ge index (innerTokens table first).length with inside | beyond
    · rwa [List.getElem?_append_left inside] at found
    · rw [List.getElem?_append_right beyond] at found
      obtain rfl := List.mem_singleton.mp (List.mem_of_getElem? found)
      exact absurd rfl inner
  have there : (innerTokens table second)[index]? = some token :=
    getElem?_innerFrom_of_take sound (.ofSource first) agree here
      (Nat.lt_of_lt_of_eq early (Nat.zero_add n).symm)
  obtain ⟨inside, _⟩ := List.getElem?_eq_some_iff.mp there
  rwa [List.getElem?_append_left inside]

theorem getElem?_tokenize_of_take_slash :
    let token : Token := ⟨.identifier, "b大", ⟨4, 6, 1, 5⟩⟩
    Obtainable .cantonese ∧ "a 大過b大/".toList.take 7 = "a 大過b大//過".toList.take 7 ∧
      (SymbolTable.cantonese.tokenize "a 大過b大/")[2]? = some token ∧ token.kind ≠ .endOfInput ∧
      token.span.stop < 7 ∧ (SymbolTable.cantonese.tokenize "a 大過b大//過")[2]? = some token := by
  intro token
  have agree : "a 大過b大/".toList.take 7 = "a 大過b大//過".toList.take 7 := by decide
  have found : (SymbolTable.cantonese.tokenize "a 大過b大/")[2]? = some token := by decide +kernel
  have inner : token.kind ≠ .endOfInput := by decide
  have early : token.span.stop < 7 := by decide
  exact ⟨.cantonese, agree, found, inner, early,
    getElem?_tokenize_of_take .cantonese agree found inner early⟩

-- The character behind a token does count.
example : (SymbolTable.cantonese.tokenize "a/")[1]? ≠ (SymbolTable.cantonese.tokenize "a//")[1]? := by
  decide +kernel

end CantoScan.Proofs.PrefixStability
