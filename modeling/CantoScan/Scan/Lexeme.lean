import CantoScan.Table.Basic
import CantoScan.Unicode.Alphabetic

/-! What stands at the front of a source text. A comment wins over a literal of two characters, that
over one of a single character, and literals over runs of digits and of letters; any other character
is invalid by itself. -/

namespace CantoScan

structure Lexeme where
  kind : Kind
  text : List Char
  rest : List Char

namespace Lexeme

def run (kind : Kind) (member : Char → Bool) (c : Char) (rest : List Char) : Lexeme :=
  ⟨kind, c :: rest.takeWhile member, rest.dropWhile member⟩

end Lexeme

/-- Letters in the widest sense, and the underscore. -/
def isWordCharacter (c : Char) : Bool := Unicode.isAlphabetic c || c = '_'

namespace SymbolTable

def opensComment (table : SymbolTable) (c : Char) (rest : List Char) : Bool :=
  rest.head?.any (table.startsComment c)

def opensDouble (table : SymbolTable) (c : Char) (rest : List Char) : Option Kind :=
  if table.startsDouble c then rest.head?.bind (table.double c) else none

def lexeme (table : SymbolTable) (c : Char) (rest : List Char) : Lexeme :=
  if table.opensComment c rest then .run .comment (· ≠ '\n') c rest
  else match table.opensDouble c rest with
    | some kind => ⟨kind, c :: rest.take 1, rest.drop 1⟩
    | none => match table.single c with
      | some kind => ⟨kind, [c], rest⟩
      | none =>
        if c.isDigit then .run .number Char.isDigit c rest
        else if isWordCharacter c then .run .identifier isWordCharacter c rest
        else ⟨.invalid, [c], rest⟩

theorem opensDouble_eq (table : SymbolTable) (c : Char) (rest : List Char) :
    table.opensDouble c rest = rest.head?.bind (table.double c) := by
  unfold opensDouble
  split
  · rfl
  next absent =>
    cases rest with
    | nil => rfl
    | cons d rest => exact (double_eq_none (by simpa using absent) d).symm

/-- Nothing is lost or moved. -/
theorem lexeme_text_append_rest (table : SymbolTable) (c : Char) (rest : List Char) :
    (table.lexeme c rest).text ++ (table.lexeme c rest).rest = c :: rest := by
  unfold lexeme Lexeme.run
  split
  · simp
  · split
    · cases rest <;> simp
    · split
      · simp
      · split
        · simp
        · split <;> simp

theorem lexeme_text_ne_nil (table : SymbolTable) (c : Char) (rest : List Char) :
    (table.lexeme c rest).text ≠ [] := by
  unfold lexeme Lexeme.run
  split
  · simp
  · split
    · simp
    · split
      · simp
      · split
        · simp
        · split <;> simp

theorem lexeme_rest_length_lt (table : SymbolTable) (c : Char) (rest : List Char) :
    (table.lexeme c rest).rest.length < (c :: rest).length := by
  have whole := congrArg List.length (table.lexeme_text_append_rest c rest)
  have some := List.length_pos_iff.mpr (table.lexeme_text_ne_nil c rest)
  rw [List.length_append] at whole
  omega

end SymbolTable

end CantoScan
