import CantoScan.Proofs.QuotedTexts
import CantoScan.Proofs.SessionLines

/-! The listing of tokens as text. Every part of a line tells where it ends, whatever stands behind it: a
name by its parenthesis, a quoted literal by a mark that no character inside begins with, a number by what is
no digit. So a listing has as many lines as tokens and can be read in one way only. -/

namespace CantoScan.Proofs.TextListing
open Text DigitLists QuotedTexts SessionLines

section Lines

/-- The line of a token without its end. -/
def row (token : Token) : String := s!"{token.label} @{token.span.label}"

private theorem line_eq (token : Token) : token.line = row token ++ "\n" := rfl

private theorem toList_row (token : Token) :
    (row token).toList = (token.kind.name.toList ++ ['(']) ++ ((quote token.literal).toList ++
      (") @".toList ++ ((Nat.toDigits 10 token.span.line ++ [':']) ++ Nat.toDigits 10 token.span.column))) := by
  simp [row, Token.label, Span.label, toString]

private theorem lineFeed_not_mem_row (token : Token) : '\n' ∉ (row token).toList := by
  have name : '\n' ∉ token.kind.name.toList := by cases token.kind <;> decide
  have digits : ∀ n, '\n' ∉ Nat.toDigits 10 n := not_mem_toDigits (by decide) (by decide) (by decide)
  simp [toList_row, name, digits, lineFeed_not_mem_quote]

private theorem delimited_line : Delimited shown fun token => token.line.toList := by
  have name : Delimited Token.kind fun token => token.kind.name.toList ++ ['('] := by
    refine delimited_stop (fun a b same => Kind.name_injective (String.toList_inj.mp same)) fun token => ?_
    cases token.kind <;> decide
  have number {stop : Char} (other : stop ∉ digitList) : Delimited id fun n => Nat.toDigits 10 n ++ [stop] :=
    delimited_toDigits (by decide) (by decide) other
  have literal := delimited_quote.comp Token.literal
  have line := (number (by decide : ':' ∉ digitList)).comp fun token : Token => token.span.line
  have column := (number (by decide : '\n' ∉ digitList)).comp fun token : Token => token.span.column
  -- One part behind the other, as they stand in a line.
  have parts := name.append (literal.append ((line.append column).behind ") @".toList))
  intro a b rest other same
  obtain ⟨keys, behind⟩ := @parts a b rest other (by simpa [line_eq, toList_row] using same)
  simp only [Prod.mk.injEq, id] at keys
  obtain ⟨kind, content, line, column⟩ := keys
  exact ⟨by rw [shown, kind, content, line, column, shown], behind⟩

private theorem line_of_shown {a b : Token} (same : shown a = shown b) : a.line = b.line := by
  obtain ⟨kind, content, line, column⟩ := Shown.mk.inj same
  rw [← String.toList_inj, line_eq, line_eq, String.toList_append, String.toList_append, toList_row, toList_row,
    kind, String.toList_inj.mp content, line, column]

private theorem textOf_cons (token : Token) (tokens : List Token) :
    Listing.textOf (token :: tokens) = token.line ++ Listing.textOf tokens :=
  String.join_cons

private theorem toList_textOf (tokens : List Token) :
    (Listing.textOf tokens).toList = tokens.flatMap fun token => token.line.toList := by
  induction tokens with
  | nil => rfl
  | cons token tokens ih => rw [textOf_cons, String.toList_append, ih, List.flatMap_cons]

private theorem shown_of_textOf {first second : List Token} (same : Listing.textOf first = Listing.textOf second) :
    first.map shown = second.map shown := by
  have stops : Stops (fun token : Token => token.line.toList) [] := by
    intro token rest empty
    simp [line_eq] at empty
  rw [← String.toList_inj, toList_textOf, toList_textOf] at same
  exact (delimited_line.flatMap stops stops (by simpa using same)).1

private theorem textOf_of_shown {first second : List Token} (same : first.map shown = second.map shown) :
    Listing.textOf first = Listing.textOf second := by
  induction first generalizing second with
  | nil => rw [List.map_eq_nil_iff.mp same.symm]
  | cons a first ih =>
    cases second with
    | nil => cases same
    | cons b second =>
      obtain ⟨head, tail⟩ := List.cons.inj same
      rw [textOf_cons, textOf_cons, line_of_shown head, ih tail]

end Lines

/-- Of any tokens the listing has one line each, and no line feed but those at the ends of the lines. Two
listings are equal exactly if they show the same of as many tokens. -/
theorem render_unambiguous (skipComments : Bool) (first second : List Token) :
    let listing : Listing := ⟨false, skipComments⟩
    (∃ lines : List String, lines.length = first.length ∧ (∀ line ∈ lines, '\n' ∉ line.toList) ∧
        listing.render first = String.join (lines.map (· ++ "\n"))) ∧
      (listing.render first = listing.render second ↔ first.map shown = second.map shown) := by
  intro listing
  refine ⟨⟨first.map row, List.length_map .., ?_, ?_⟩, shown_of_textOf, textOf_of_shown⟩
  · exact List.forall_mem_map.mpr fun token _ => lineFeed_not_mem_row token
  · rw [List.map_map]
    rfl

/-- A literal that ends the way a line does. -/
example :
    Listing.textOf [⟨.comment, "//\") @1:1\n", ⟨0, 10, 1, 1⟩⟩, .atEnd ⟨10, 10, 2, 1⟩] =
      "Comment(\"//\\\") @1:1\\n\") @1:1\nEndOfInput(\"\") @2:1\n" := by
  decide +kernel

end CantoScan.Proofs.TextListing
