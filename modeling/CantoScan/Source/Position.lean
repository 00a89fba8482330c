/-! Places in a source text. Offsets count characters from zero, lines and columns from one; only a
line feed ends a line. -/

namespace CantoScan

structure Position where
  offset : Nat
  line : Nat
  column : Nat
  deriving DecidableEq

namespace Position

def origin : Position := ⟨0, 1, 1⟩

def advance (position : Position) (c : Char) : Position :=
  if c = '\n' then ⟨position.offset + 1, position.line + 1, 1⟩
  else ⟨position.offset + 1, position.line, position.column + 1⟩

def after (position : Position) (text : List Char) : Position := text.foldl advance position

@[simp] theorem after_nil (position : Position) : position.after [] = position := rfl

@[simp] theorem after_cons (position : Position) (c : Char) (text : List Char) :
    position.after (c :: text) = (position.advance c).after text := rfl

theorem after_append (position : Position) (first second : List Char) :
    position.after (first ++ second) = (position.after first).after second :=
  List.foldl_append

theorem advance_offset (position : Position) (c : Char) :
    (position.advance c).offset = position.offset + 1 := by
  unfold advance
  split <;> rfl

theorem after_offset (position : Position) (text : List Char) :
    (position.after text).offset = position.offset + text.length := by
  induction text generalizing position with
  | nil => rfl
  | cons c text ih =>
    rw [after_cons, ih, advance_offset, List.length_cons]
    omega

theorem after_line (position : Position) (text : List Char) :
    (position.after text).line = position.line + text.count '\n' := by
  induction text generalizing position with
  | nil => rfl
  | cons c text ih =>
    rw [after_cons, ih, List.count_cons, advance]
    split
    next feed => simp [feed, Nat.add_assoc, Nat.add_comm 1]
    next other => simp [other]

end Position

/-- A stretch of source text, with the line and column of its first character. -/
structure Span where
  start : Nat
  stop : Nat
  line : Nat
  column : Nat
  deriving DecidableEq

namespace Span

def between (first last : Position) : Span := ⟨first.offset, last.offset, first.line, first.column⟩

def point (position : Position) : Span := between position position

instance : Inhabited Span := ⟨point .origin⟩

/-- Line and column, as messages and listings show them. -/
def label (span : Span) : String := s!"{span.line}:{span.column}"

end Span

end CantoScan
