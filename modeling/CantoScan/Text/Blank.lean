/-! The characters that separate tokens and are never part of one. -/

namespace CantoScan.Text

def isBlank (c : Char) : Bool := c = ' ' || c = '\t' || c = '\r' || c = '\n'

/-- A text from its first character that is not blank. -/
def dropBlanks (text : List Char) : List Char := text.dropWhile isBlank

theorem isBlank_iff {c : Char} : isBlank c = true ↔ c = ' ' ∨ c = '\t' ∨ c = '\r' ∨ c = '\n' := by
  simp [isBlank, or_assoc]

theorem dropBlanks_suffix (text : List Char) : dropBlanks text <:+ text :=
  List.dropWhile_suffix isBlank

theorem dropBlanks_length_le (text : List Char) : (dropBlanks text).length ≤ text.length :=
  (dropBlanks_suffix text).length_le

theorem suffix_of_dropBlanks {text rest : List Char} {c : Char} (front : dropBlanks text = c :: rest) :
    rest <:+ text :=
  (List.suffix_cons c rest).trans (front ▸ dropBlanks_suffix text)

theorem length_lt_of_dropBlanks {text rest : List Char} {c : Char}
    (front : dropBlanks text = c :: rest) : rest.length < text.length := by
  have bound := dropBlanks_length_le text
  rw [front, List.length_cons] at bound
  exact bound

end CantoScan.Text
