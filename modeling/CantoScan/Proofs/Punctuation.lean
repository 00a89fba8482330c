import CantoScan.Proofs.FurtherSpellings
import CantoScan.Proofs.TableLoading
import CantoScan.Proofs.TokenStream

/-! Scanning with ASCII signs. A table that takes them in cuts every source as it did before: a sign that
was an invalid character by itself becomes punctuation, and every other token stays as it is. -/

namespace CantoScan.Proofs.Punctuation
open Command TableRules LexemeReach ScanReading TokenStream TableLoading FurtherSpellings

def signOf? (literal : String) : Option Kind :=
  match literal.toList with
  | [c] => signKind? c
  | _ => none

def recognizedKind (kind : Kind) (literal : String) : Kind :=
  if kind = .invalid then (signOf? literal).getD .invalid else kind

/-- A token as a table reads it that knows the signs. -/
def recognized (token : Token) : Token := { token with kind := recognizedKind token.kind token.literal }

private theorem recognizedKind_of_unscanned {kind : Kind} (unscanned : kind.isScanned = false)
    (literal : String) : recognizedKind kind literal = kind := by
  apply if_neg
  rintro rfl
  cases unscanned

private theorem recognizedKind_invalid (c : Char) :
    recognizedKind .invalid (String.ofList [c]) = (signKind? c).getD .invalid := by
  simp [recognizedKind, signOf?]

private theorem recognized_of_invalid {token : Token} (invalid : (recognized token).kind = .invalid) :
    recognized token = token := by
  by_cases own : token.kind = .invalid
  · rw [← own] at invalid
    rw [show recognized token = { token with kind := (recognized token).kind } from rfl, invalid]
  · rw [recognized, recognizedKind, if_neg own]

private theorem signKind?_class {c : Char} {kind : Kind} (sign : signKind? c = some kind) :
    c.isDigit = false ∧ isWordCharacter c = false := by
  unfold signKind? at sign
  split at sign
  case h_7 => cases sign
  all_goals decide

section Step
variable {table after : SymbolTable} (taken : TakenIn table signKind? after)
include taken

private theorem opensComment_of_takenIn (c : Char) (rest : List Char) :
    after.opensComment c rest = table.opensComment c rest := by
  simp only [SymbolTable.opensComment, Option.any, SymbolTable.startsComment, taken.comment]

private theorem opensDouble_of_takenIn (c : Char) (rest : List Char) :
    after.opensDouble c rest = table.opensDouble c rest := by
  have pair : after.double c = table.double c := by
    funext d
    rw [SymbolTable.double, SymbolTable.double, taken.doubles]
  rw [SymbolTable.opensDouble_eq, SymbolTable.opensDouble_eq, pair]

/-- Comments and literals come before signs, and what comes behind them never begins with a sign. -/
theorem lexeme_of_takenIn (sound : Sound table) (c : Char) (rest : List Char) :
    after.lexeme c rest =
      let lexeme := table.lexeme c rest
      { lexeme with kind := recognizedKind lexeme.kind (String.ofList lexeme.text) } := by
  have comment := opensComment_of_takenIn taken c rest
  have double := opensDouble_of_takenIn taken c rest
  have single := taken.single c
  have reading := reading_lexeme table c rest
  generalize table.lexeme c rest = lexeme at reading
  apply Reading.eq
  cases reading with
  | comment opens => exact .comment (comment.trans opens)
  | double plain bound =>
    obtain ⟨d, _, _, pair⟩ := opensDouble_eq_some bound
    dsimp only
    rw [recognizedKind_of_unscanned (sound.double_kind pair)]
    exact .double (comment.trans plain) (double.trans bound)
  | single plain unbound bound =>
    rw [bound, Option.some_or] at single
    dsimp only
    rw [recognizedKind_of_unscanned (sound.single_kind bound)]
    exact .single (comment.trans plain) (double.trans unbound) single
  | number plain unbound free digit =>
    rw [free, Option.none_or] at single
    cases sign : signKind? c with
    | none => exact .number (comment.trans plain) (double.trans unbound) (single.trans sign) digit
    | some kind => exact absurd digit (by simp [(signKind?_class sign).1])
  | identifier plain unbound free other letter =>
    rw [free, Option.none_or] at single
    cases sign : signKind? c with
    | none =>
      exact .identifier (comment.trans plain) (double.trans unbound) (single.trans sign) other letter
    | some kind => exact absurd letter (by simp [(signKind?_class sign).2])
  | invalid plain unbound free other unknown =>
    rw [free, Option.none_or] at single
    dsimp only
    rw [recognizedKind_invalid]
    cases sign : signKind? c with
    | none => exact .invalid (comment.trans plain) (double.trans unbound) (single.trans sign) other unknown
    | some kind => exact .single (comment.trans plain) (double.trans unbound) (single.trans sign)

private theorem tokenAt_of_takenIn (sound : Sound table) (position : Position) (c : Char) (rest : List Char) :
    after.tokenAt position c rest =
      (recognized (table.tokenAt position c rest).1, (table.tokenAt position c rest).2) := by
  rw [tokenAt_eq (lexeme_of_takenIn taken sound c rest), tokenAt_eq rfl]
  rfl

private theorem tokensFrom_of_takenIn (sound : Sound table) (soundToo : Sound after) (unread : Unread) :
    after.tokensFrom unread =
      ((table.tokensFrom unread).1.map recognized, (table.tokensFrom unread).2) := by
  induction unread using scan_induction table with
  | blank unread done =>
    rw [tokensFrom_of_blank done, tokensFrom_of_blank done]
    rfl
  | lexeme unread c rest front ih =>
    rw [tokensFrom_of_lexeme soundToo front, tokensFrom_of_lexeme sound front,
      tokenAt_of_takenIn taken sound]
    dsimp only
    rw [ih, List.map_cons]

end Step

/-- The tokens of a source before and after signs are taken in. -/
structure SameSegments (before after : List Token) : Prop where
  tokens : after = before.map recognized
  segments : after.map (fun token => (token.literal, token.span)) =
    before.map fun token => (token.literal, token.span)
  invalid : ∀ token ∈ after, token.kind = .invalid → token ∈ before

private theorem sameSegments_of_map {before after : List Token} (tokens : after = before.map recognized) :
    SameSegments before after := by
  refine ⟨tokens, ?_, ?_⟩
  · rw [tokens, List.map_map]
    rfl
  · intro token member invalid
    rw [tokens] at member
    obtain ⟨own, inside, rfl⟩ := List.mem_map.mp member
    rwa [recognized_of_invalid invalid]

private theorem sameSegments_tokenize {table : SymbolTable} (sound : Sound table) (source : String) :
    SameSegments (table.tokenize source) (table.withAsciiPunctuation.tokenize source) := by
  have taken : TakenIn table signKind? table.withAsciiPunctuation :=
    takenIn_offerAll lookup_asciiPunctuation (by decide)
  have soundToo : Sound table.withAsciiPunctuation := sound.offerAll (by decide)
  exact sameSegments_of_map
    (congrArg Prod.fst (tokensFrom_of_takenIn taken sound soundToo (.ofSource source)))

private theorem sameSegments_extended {base : SymbolTable} (sound : Sound base) (options : Options)
    (source : String) :
    SameSegments ((extended { options with ascii := false } base).tokenize source)
      ((extended { options with ascii := true } base).tokenize source) := by
  unfold extended punctuated
  cases words : options.wordOperators with
  | false => exact sameSegments_tokenize sound source
  | true =>
    have soundToo : Sound base.withWordOperators := sound.offerAll (by decide)
    simp only [Bool.false_eq_true, if_true, if_false, (alike_offered sound).tokens source]
    exact sameSegments_tokenize soundToo source

/-- A command that is told to take in signs does so wherever it would have worked without them. -/
theorem sameSegments_chosenTable {surroundings : Surroundings} {options : Options} {chosen : SymbolTable}
    (plain : (chosenTable surroundings { options with ascii := false }).result = .ok chosen) :
    ∃ widened, (chosenTable surroundings { options with ascii := true }).result = .ok widened ∧
      ∀ source, SameSegments (chosen.tokenize source) (widened.tokenize source) := by
  rw [result_chosenTable_eq] at plain ⊢
  cases found : baseTable surroundings { options with ascii := false } with
  | error failure =>
    rw [found] at plain
    cases plain
  | ok base =>
    have foundToo : baseTable surroundings { options with ascii := true } = .ok base := found
    rw [found] at plain
    cases plain
    rw [foundToo]
    exact ⟨_, rfl, sameSegments_extended (baseTable_obtainable found).sound options⟩

/-- Under every table that can be made, a source has the same literals at the same places whether or not
signs are taken in. Only invalid tokens change their kind, each to that of the sign that it is. The same
holds of a command that is told to take them in. -/
theorem tokenize_withAsciiPunctuation {table : SymbolTable} (obtained : Obtainable table) :
    (∀ source, SameSegments (table.tokenize source) (table.withAsciiPunctuation.tokenize source)) ∧
      ∀ surroundings (options : Options) chosen,
        (chosenTable surroundings { options with ascii := false }).result = .ok chosen →
          ∃ widened, (chosenTable surroundings { options with ascii := true }).result = .ok widened ∧
            ∀ source, SameSegments (chosen.tokenize source) (widened.tokenize source) :=
  ⟨sameSegments_tokenize obtained.sound, fun _ _ _ plain => sameSegments_chosenTable plain⟩

theorem tokenize_withAsciiPunctuation_bound :
    let table := attempt (attempt ⟨[], [], ('(', ';')⟩ ")," .orWord) "," .minus
    let tokens : List Token :=
      [⟨.orWord, "),", ⟨0, 2, 1, 1⟩⟩, ⟨.minus, ",", ⟨2, 3, 1, 3⟩⟩, ⟨.closeParen, ")", ⟨3, 4, 1, 4⟩⟩,
        ⟨.openParen, "(", ⟨4, 5, 1, 5⟩⟩, ⟨.invalid, "$", ⟨5, 6, 1, 6⟩⟩, ⟨.comment, "(;)", ⟨6, 9, 1, 7⟩⟩,
        ⟨.endOfInput, "", ⟨9, 9, 1, 10⟩⟩]
    Obtainable table ∧ table.withAsciiPunctuation.tokenize "),,)($(;)" = tokens ∧
      SameSegments (table.tokenize "),,)($(;)") tokens ∧
      ∃ widened, (chosenTable ⟨fun _ => .error .missing, [], 0⟩ { ascii := true }).result = .ok widened ∧
        SameSegments (SymbolTable.cantonese.tokenize "(叫佢)") (widened.tokenize "(叫佢)") := by
  intro table tokens
  have made : SymbolTable.empty "(;" = .ok ⟨[], [], ('(', ';')⟩ := by decide
  have obtained : Obtainable table := .insert _ _ (.insert _ _ (.empty made))
  have read : table.withAsciiPunctuation.tokenize "),,)($(;)" = tokens := by decide +kernel
  obtain ⟨scanned, commanded⟩ := tokenize_withAsciiPunctuation obtained
  obtain ⟨widened, chosen, same⟩ := commanded ⟨fun _ => .error .missing, [], 0⟩ {} .cantonese
    ((neverRefused _ _).builtin rfl)
  exact ⟨obtained, read, read ▸ scanned _, widened, chosen, same _⟩

end CantoScan.Proofs.Punctuation
