import CantoScan.Scan.Lexeme
import CantoScan.Text.Blank
import CantoScan.Token

/-! The tokens of a source text. Each step skips blanks and takes one lexeme; the last token is the
one that marks the end of the input. -/

namespace CantoScan

/-- The part of a source that is still to be read, and the place where it begins. -/
structure Unread where
  position : Position
  text : List Char
  deriving DecidableEq

namespace Unread

def ofSource (source : String) : Unread := ⟨.origin, source.toList⟩

def skipBlanks (unread : Unread) : Unread :=
  ⟨unread.position.after (unread.text.takeWhile Text.isBlank), Text.dropBlanks unread.text⟩

theorem skipBlanks_length_le (unread : Unread) : unread.skipBlanks.text.length ≤ unread.text.length :=
  Text.dropBlanks_length_le unread.text

end Unread

namespace SymbolTable

def tokenAt (table : SymbolTable) (position : Position) (c : Char) (rest : List Char) : Token × Unread :=
  let lexeme := table.lexeme c rest
  let stop := position.after lexeme.text
  (⟨lexeme.kind, String.ofList lexeme.text, .between position stop⟩, ⟨stop, lexeme.rest⟩)

def next (table : SymbolTable) (unread : Unread) : Token × Unread :=
  let start := unread.skipBlanks
  match start.text with
  | [] => (.atEnd (.point start.position), start)
  | c :: rest => table.tokenAt start.position c rest

theorem next_of_nil {table : SymbolTable} {unread : Unread} (done : unread.skipBlanks.text = []) :
    table.next unread = (.atEnd (.point unread.skipBlanks.position), unread.skipBlanks) := by
  simp only [next, done]

theorem next_of_cons {table : SymbolTable} {unread : Unread} {c : Char} {rest : List Char}
    (more : unread.skipBlanks.text = c :: rest) :
    table.next unread = table.tokenAt unread.skipBlanks.position c rest := by
  simp only [next, more]

/-- Every token but the last takes at least one character. -/
theorem next_length_lt {table : SymbolTable} {unread : Unread}
    (more : (table.next unread).1.isEnd = false) :
    (table.next unread).2.text.length < unread.text.length := by
  cases front : unread.skipBlanks.text with
  | nil =>
    rw [next_of_nil front] at more
    exact absurd more (by simp [Token.isEnd, Token.atEnd])
  | cons c rest =>
    have shorter := table.lexeme_rest_length_lt c rest
    have bound := unread.skipBlanks_length_le
    rw [front] at bound
    rw [next_of_cons front]
    exact Nat.lt_of_lt_of_le shorter bound

/-- Reads to the end, adding to the tokens found before. -/
def drain (table : SymbolTable) (unread : Unread) (found : Array Token) : Array Token × Unread :=
  let step := table.next unread
  if _more : step.1.isEnd = false then table.drain step.2 (found.push step.1)
  else (found.push step.1, step.2)
termination_by unread.text.length
decreasing_by exact next_length_lt _more

def tokensFrom (table : SymbolTable) (unread : Unread) : List Token × Unread :=
  let drained := table.drain unread #[]
  (drained.1.toList, drained.2)

def tokenize (table : SymbolTable) (source : String) : List Token :=
  (table.tokensFrom (.ofSource source)).1

private theorem drain_of_more {table : SymbolTable} {unread : Unread} (found : Array Token)
    (more : (table.next unread).1.isEnd = false) :
    table.drain unread found = table.drain (table.next unread).2 (found.push (table.next unread).1) := by
  rw [drain]
  exact dif_pos more

private theorem drain_of_end {table : SymbolTable} {unread : Unread} (found : Array Token)
    (last : (table.next unread).1.isEnd = true) :
    table.drain unread found = (found.push (table.next unread).1, (table.next unread).2) := by
  rw [drain]
  exact dif_neg (by simp [last])

private theorem drain_eq (table : SymbolTable) (unread : Unread) (found : Array Token) :
    table.drain unread found =
      (found ++ (table.drain unread #[]).1, (table.drain unread #[]).2) := by
  cases final : (table.next unread).1.isEnd with
  | false =>
    rw [drain_of_more found final, drain_of_more #[] final, drain_eq, drain_eq table _ (#[].push _)]
    simp
  | true =>
    rw [drain_of_end found final, drain_of_end #[] final]
    simp
termination_by unread.text.length
decreasing_by all_goals exact next_length_lt final

theorem tokensFrom_of_more {table : SymbolTable} {unread : Unread}
    (more : (table.next unread).1.isEnd = false) :
    table.tokensFrom unread =
      ((table.next unread).1 :: (table.tokensFrom (table.next unread).2).1,
        (table.tokensFrom (table.next unread).2).2) := by
  rw [tokensFrom, drain_of_more #[] more, drain_eq]
  simp [tokensFrom]

theorem tokensFrom_of_end {table : SymbolTable} {unread : Unread}
    (last : (table.next unread).1.isEnd = true) :
    table.tokensFrom unread = ([(table.next unread).1], (table.next unread).2) := by
  rw [tokensFrom, drain_of_end #[] last]
  rfl

end SymbolTable

end CantoScan
