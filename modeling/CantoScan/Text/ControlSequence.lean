/-! Terminal control sequences, and text without them. A log is written for readers, so nothing in a
message may move the cursor, ring the bell or change the colours. -/

namespace CantoScan.Text

inductive ControlSequence where
  | nothing
  | escape
  | intermediates
  | parameters
  | deviceStart
  | deviceParameters
  | deviceIntermediates
  | systemCommand
  | controlString
  deriving DecidableEq

namespace ControlSequence

def cancel : Nat := 0x18

def substitute : Nat := 0x1A

def escapeMark : Nat := 0x1B

def bell : Nat := 0x07

/-- The byte that ends a control string, wherever it stands in the encoding of a character. -/
def terminator : UInt8 := 0x9C

def isWithin (first last point : Nat) : Bool := first ≤ point && point ≤ last

/-- What the character behind an escape mark begins. -/
def ofIntroducer (c : Char) : ControlSequence :=
  if isWithin 0x20 0x2F c.toNat then .intermediates
  else if c = '[' then .parameters
  else if c = 'P' then .deviceStart
  else if c = ']' then .systemCommand
  else if c = 'X' ∨ c = '^' ∨ c = '_' then .controlString
  else if isWithin 0x30 0x7E c.toNat then .nothing
  else .escape

/-- The header of a device control string. Its parameters come first, and a parameter out of its place
begins the string itself. -/
def afterDevice (stage : ControlSequence) (latest point : Nat) : ControlSequence :=
  if isWithin 0x20 0x2F point then .deviceIntermediates
  else if isWithin 0x30 latest point then .deviceParameters
  else if isWithin 0x30 0x7E point then .controlString
  else stage

/-- One more character of a sequence. An escape mark begins a new one, and whatever a sequence does not
know is left out of it. -/
def after (stage : ControlSequence) (c : Char) : ControlSequence :=
  let point := c.toNat
  if point = cancel ∨ point = substitute then .nothing
  else if point = escapeMark then .escape
  else match stage with
    | .nothing => .nothing
    | .escape => ofIntroducer c
    | .intermediates => if isWithin 0x30 0x7E point then .nothing else .intermediates
    | .parameters => if isWithin 0x40 0x7E point then .nothing else .parameters
    | .deviceStart => stage.afterDevice 0x3F point
    | .deviceParameters => stage.afterDevice 0x3B point
    | .deviceIntermediates => stage.afterDevice 0x2F point
    | .systemCommand => if point = bell then .nothing else .systemCommand
    | .controlString => if (String.utf8EncodeChar c).contains terminator then .nothing else .controlString

/-- White space that is a control character. The vertical tab is none. -/
def isBlankControl (c : Char) : Bool := c = '\t' || c = '\n' || c = '\x0c' || c = '\r'

/-- A character that is shown outside any sequence. -/
def isShown (c : Char) : Bool := isBlankControl c || (0x20 ≤ c.toNat && c.toNat ≠ 0x7F)

/-- A character that is shown although a sequence has been begun. A string keeps its blanks. -/
def shows (stage : ControlSequence) (c : Char) : Bool :=
  match stage with
  | .nothing => isShown c
  | .escape | .intermediates | .parameters => isBlankControl c
  | _ => false

end ControlSequence

/-- A text of which some is read: what it shows, and the sequence in which it stands. White space
interrupts a sequence up to the next character that is not shown. -/
structure Screen where
  shown : String
  sequence : ControlSequence
  interrupted : Bool
  deriving DecidableEq

namespace Screen

def blank : Screen := ⟨"", .nothing, false⟩

/-- Reads one more character. One that is not ASCII ends the sequence that it interrupts. -/
def read (screen : Screen) (c : Char) : Screen :=
  if screen.sequence.shows c || (screen.interrupted && ControlSequence.isShown c) then
    { shown := screen.shown.push c
      sequence := if c.toNat < 0x80 then screen.sequence else .nothing
      interrupted := true }
  else { screen with sequence := screen.sequence.after c, interrupted := false }

end Screen

/-- A text without control sequences and without controls other than white space. -/
def visible (text : String) : String := (text.toList.foldl Screen.read .blank).shown

end CantoScan.Text
