import CantoScan.Scan.Tokenize

/-! Reading tokens on demand. A cursor can be asked for the next token at any time, also behind the
end, and can be walked as a sequence that stops once the end has been given out. Only the sequence
reads or sets `finished`. -/

namespace CantoScan

structure Cursor where
  table : SymbolTable
  unread : Unread
  finished : Bool

namespace Cursor

def ofSource (table : SymbolTable) (source : String) : Cursor := ⟨table, .ofSource source, false⟩

/-- Whether no character is left, blanks included. -/
def isAtEnd (cursor : Cursor) : Bool := cursor.unread.text.isEmpty

def take (cursor : Cursor) : Token × Cursor :=
  let step := cursor.table.next cursor.unread
  (step.1, { cursor with unread := step.2 })

/-- All tokens from here on, whether or not the sequence is finished. -/
def takeAll (cursor : Cursor) : List Token × Cursor :=
  let tokens := cursor.table.tokensFrom cursor.unread
  (tokens.1, { cursor with unread := tokens.2 })

def next? (cursor : Cursor) : Option Token × Cursor :=
  if cursor.finished then (none, cursor)
  else
    let step := cursor.take
    (some step.1, { step.2 with finished := step.1.isEnd })

/-- Characters left to a sequence, and one more for the token at the end. -/
def remaining (cursor : Cursor) : Nat :=
  if cursor.finished then 0 else cursor.unread.text.length + 1

theorem next?_remaining_lt {cursor after : Cursor} {token : Token}
    (step : cursor.next? = (some token, after)) : after.remaining < cursor.remaining := by
  unfold next? at step
  split at step
  · simp at step
  next unfinished =>
    obtain ⟨given, rfl⟩ := Prod.mk.inj step
    simp only [remaining, unfinished]
    cases final : cursor.take.1.isEnd with
    | true => simp
    | false =>
      have shorter : cursor.take.2.unread.text.length < cursor.unread.text.length :=
        SymbolTable.next_length_lt final
      simpa using shorter

/-- Walks the sequence to its end, adding to the tokens found before. -/
def collect (cursor : Cursor) (found : Array Token) : Array Token × Cursor :=
  match _step : cursor.next? with
  | (none, after) => (found, after)
  | (some token, after) => after.collect (found.push token)
termination_by cursor.remaining
decreasing_by exact next?_remaining_lt _step

theorem collect_eq (cursor : Cursor) (found : Array Token) :
    cursor.collect found =
      match cursor.next? with
      | (none, after) => (found, after)
      | (some token, after) => after.collect (found.push token) := by
  rw [collect]
  split
  next step => rw [step]
  next step => rw [step]

def rest (cursor : Cursor) : List Token × Cursor :=
  let collected := cursor.collect #[]
  (collected.1.toList, collected.2)

end Cursor

end CantoScan
