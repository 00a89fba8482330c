import CantoScan.Proofs.QuotedTexts
import CantoScan.Table.Update

/-! What the message of a fault tells. Every message quotes the literal or the marker that it is about, and
what stands in front of the quotation and behind it names the rule, so no two faults share a message. -/

namespace CantoScan.Proofs.FaultMessages
open Text QuotedTexts TableFault

/-- The text in question: a marker or a literal. -/
def subject : TableFault → String
  | .commentMarker marker => marker
  | .scannedKind _ literal | .reservedCharacter literal _ | .duplicateLiteral literal
  | .commentCollision literal | .literalLength literal => literal

def opening : TableFault → String
  | .commentMarker _ => "comment marker must be two non-space characters, got "
  | .scannedKind kind _ => kind.name ++ " cannot be bound to a literal ("
  | .duplicateLiteral _ => "duplicate literal "
  | .reservedCharacter _ _ | .commentCollision _ | .literalLength _ => "literal "

def ending : TableFault → String
  | .commentMarker _ | .duplicateLiteral _ => ""
  | .scannedKind _ _ => ")"
  | .reservedCharacter _ c => " contains " ++ (quoteChar c ++ ", which is reserved for numbers or whitespace")
  | .commentCollision _ => " collides with the comment marker"
  | .literalLength _ => " must be one or two characters long"

private theorem message_eq (fault : TableFault) :
    fault.message = opening fault ++ quote (subject fault) ++ ending fault := by
  cases fault with
  | commentMarker | duplicateLiteral => exact String.append_empty.symm
  | scannedKind | commentCollision | literalLength => rfl
  | reservedCharacter literal c =>
    rw [ending, ← String.append_assoc, ← String.append_assoc]
    rfl

private theorem mark_not_mem_opening (fault : TableFault) : '"' ∉ (opening fault).toList := by
  cases fault with
  | scannedKind kind literal =>
    have name : '"' ∉ kind.name.toList := by cases kind <;> decide
    simp [opening, name]
  | _ => simp [opening]

private theorem parts_of_message {first second : TableFault} (same : first.message = second.message) :
    opening first = opening second ∧ subject first = subject second ∧
      (ending first).toList = (ending second).toList := by
  have chars := congrArg String.toList same
  simp only [message_eq, String.toList_append, List.append_assoc] at chars
  have front : (opening first).toList = (opening second).toList := by
    rw [quote, quote, toList_quoteWith, toList_quoteWith] at chars
    exact (append_cons_inj (mark_not_mem_opening first) (mark_not_mem_opening second) chars).1
  rw [front] at chars
  obtain ⟨about, behind⟩ := delimited_quote (List.append_cancel_left chars)
  exact ⟨String.toList_inj.mp front, String.toList_inj.mp about, behind⟩

theorem message_injective {first second : TableFault} (same : first.message = second.message) :
    first = second := by
  obtain ⟨front, about, behind⟩ := parts_of_message same
  cases first <;> cases second
  case scannedKind.scannedKind kind literal other literalToo =>
    obtain rfl := Kind.name_injective (by simpa [opening] using front)
    rw [subject, subject] at about
    rw [about]
  case reservedCharacter.reservedCharacter literal c literalToo d =>
    obtain rfl : c = d := quoteChar_injective (by simpa [ending] using behind)
    rw [subject, subject] at about
    rw [about]
  -- Any two other faults of one rule differ in the text alone, and different rules in what stands around it.
  all_goals simp_all [opening, ending, subject]

end CantoScan.Proofs.FaultMessages
