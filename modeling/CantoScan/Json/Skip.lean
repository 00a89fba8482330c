import CantoScan.Json.Numeral
import CantoScan.Json.Quoted

/-! Passing over a value whose content does not matter. The brackets that are still open are kept in a
list, so values may be nested to any depth. Only the form is checked: numbers may be of any size, and
surrogates may stand alone. -/

namespace CantoScan.Json.Reader

def skipKey : Reader Unit := do
  match ← peek with
  | none => fail .endOfObject
  | some c =>
    if c = '"' then
      discard next
      skipString
      colon
    else fail .keyNotString

/-- Behind a value: closes brackets up to a comma or to the last one. Brackets that stay open ask for
another value. -/
def closeBrackets : List Bracket → Reader (List Bracket)
  | [] => give []
  | bracket :: enclosing => do
    match ← peek with
    | none => fail bracket.unfinished
    | some c =>
      if c = bracket.closer then
        discard next
        closeBrackets enclosing
      else if c = ',' then
        discard next
        if bracket = .object then skipKey
        pure (bracket :: enclosing)
      else fail bracket.separator

def openBracket (bracket : Bracket) (enclosing : List Bracket) : Reader (List Bracket) := do
  match ← peek with
  | none => fail bracket.unfinished
  | some c =>
    if c = bracket.closer then
      discard next
      closeBrackets enclosing
    else
      if bracket = .object then skipKey
      pure (bracket :: enclosing)

def skipScalar (c : Char) : Reader Unit :=
  if c = 'n' then word ['u', 'l', 'l']
  else if c = 't' then word ['r', 'u', 'e']
  else if c = 'f' then word ['a', 'l', 's', 'e']
  else if c = '"' then skipString
  else if startsNumber c then skipNumber c
  else fail .expectedValue

/-- A value, or the beginning of one, behind its first character. -/
def skipStep (c : Char) (enclosing : List Bracket) : Reader (List Bracket) := do
  if c = '[' then openBracket .list enclosing
  else if c = '{' then openBracket .object enclosing
  else
    skipScalar c
    closeBrackets enclosing

def runSkip (enclosing : List Bracket) (text : List Char) : Except Fault (Unit × List Char) :=
  match _front : Text.dropBlanks text with
  | [] => .error .endOfValue
  | c :: rest =>
    match _step : (skipStep c enclosing).run rest with
    | .ok ([], rest) => .ok ((), rest)
    | .ok (bracket :: enclosing, rest) => runSkip (bracket :: enclosing) rest
    | .error fault => .error fault
termination_by text.length
decreasing_by
  have bound := run_length_le _ _step
  have shorter := Text.length_lt_of_dropBlanks _front
  omega

theorem runSkip_suffix {enclosing : List Bracket} {text rest : List Char} {done : Unit}
    (skipped : runSkip enclosing text = .ok (done, rest)) : rest <:+ text := by
  fun_induction runSkip enclosing text with
  | case1 => cases skipped
  | case2 enclosing text c left front following step =>
    cases skipped
    exact (run_suffix _ step).trans (Text.suffix_of_dropBlanks front)
  | case3 enclosing text c left front bracket outer following step ih =>
    exact (ih skipped).trans ((run_suffix _ step).trans (Text.suffix_of_dropBlanks front))
  | case4 => cases skipped

theorem runSkip_eq (enclosing : List Bracket) (text : List Char) :
    runSkip enclosing text =
      match Text.dropBlanks text with
      | [] => .error .endOfValue
      | c :: rest =>
        match (skipStep c enclosing).run rest with
        | .ok ([], rest) => .ok ((), rest)
        | .ok (bracket :: enclosing, rest) => runSkip (bracket :: enclosing) rest
        | .error fault => .error fault := by
  rw [runSkip]
  split
  next front => rw [front]
  next front =>
    rw [front]
    dsimp only
    split
    next step => rw [step]
    next step => rw [step]
    next step => rw [step]

def skip : Reader Unit where
  run := runSkip []
  run_suffix := runSkip_suffix

end CantoScan.Json.Reader
