import CantoScan.Json.Fault
import CantoScan.Text.Blank

/-! Readers of JSON text. A reader takes a value off the front of a text and leaves the rest, or names
the first fault it meets. What it leaves is always an end of what it was given. -/

namespace CantoScan.Json

structure Reader (α : Type) where
  run : List Char → Except Fault (α × List Char)
  run_suffix : ∀ {text : List Char} {value : α} {rest : List Char},
    run text = .ok (value, rest) → rest <:+ text

namespace Reader

variable {α β σ : Type}

theorem run_length_le (reader : Reader α) {text rest : List Char} {value : α}
    (done : reader.run text = .ok (value, rest)) : rest.length ≤ text.length :=
  (reader.run_suffix done).length_le

def give (value : α) : Reader α where
  run text := .ok (value, text)
  run_suffix done := by
    cases done
    exact List.suffix_rfl

def fail (fault : Fault) : Reader α where
  run _ := .error fault
  run_suffix done := by cases done

def andThen (first : Reader α) (second : α → Reader β) : Reader β where
  run text :=
    match first.run text with
    | .ok (value, rest) => (second value).run rest
    | .error fault => .error fault
  run_suffix done := by
    split at done
    next step => exact ((second _).run_suffix done).trans (first.run_suffix step)
    next => cases done

instance : Monad Reader where
  pure := give
  bind := andThen

@[simp] theorem run_pure (value : α) (text : List Char) :
    (pure value : Reader α).run text = .ok (value, text) := rfl

@[simp] theorem run_fail (fault : Fault) (text : List Char) :
    (fail fault : Reader α).run text = .error fault := rfl

theorem run_bind (first : Reader α) (second : α → Reader β) (text : List Char) :
    (first >>= second).run text =
      match first.run text with
      | .ok (value, rest) => (second value).run rest
      | .error fault => .error fault := rfl

def ofExcept : Except Fault α → Reader α
  | .ok value => give value
  | .error fault => fail fault

/-- The next character that is not blank, left where it is. -/
def peek : Reader (Option Char) where
  run text :=
    let rest := Text.dropBlanks text
    .ok (rest.head?, rest)
  run_suffix done := by
    cases done
    exact List.dropWhile_suffix _

/-- Takes one character, blank or not. -/
def next : Reader (Option Char) where
  run text := .ok (text.head?, text.tail)
  run_suffix done := by
    cases done
    exact List.tail_suffix _

@[simp] theorem run_peek (text : List Char) :
    peek.run text = .ok ((Text.dropBlanks text).head?, Text.dropBlanks text) := rfl

@[simp] theorem run_next (text : List Char) : next.run text = .ok (text.head?, text.tail) := rfl

def word : List Char → Reader Unit
  | [] => give ()
  | c :: letters => do
    match ← next with
    | none => fail .endOfValue
    | some d => if d = c then word letters else fail .expectedWord

def colon : Reader Unit := do
  match ← peek with
  | none => fail .endOfObject
  | some c => if c = ':' then discard next else fail .expectedColon

end Reader

inductive Bracket where
  | list
  | object
  deriving DecidableEq

namespace Bracket

def closer : Bracket → Char
  | .list => ']'
  | .object => '}'

/-- The fault of a text that ends between two items. -/
def unfinished : Bracket → Fault
  | .list => .endOfList
  | .object => .endOfObject

/-- The fault of an item with neither a comma nor the closing bracket behind it. -/
def separator : Bracket → Fault
  | .list => .expectedListSeparator
  | .object => .expectedObjectSeparator

end Bracket

namespace Reader

variable {α σ : Type}

def behindComma (bracket : Bracket) (item : Reader α) : Reader α := do
  match ← peek with
  | none => fail .endOfValue
  | some c => if c = bracket.closer then fail .trailingComma else item

/-- Further items, each behind a comma, up to the closing bracket. -/
def runFurther (bracket : Bracket) (item : σ → Reader σ) (state : σ) (text : List Char) :
    Except Fault (σ × List Char) :=
  match _front : Text.dropBlanks text with
  | [] => .error bracket.unfinished
  | c :: rest =>
    if c = bracket.closer then .ok (state, rest)
    else if c = ',' then
      match _step : (behindComma bracket (item state)).run rest with
      | .ok (state, rest) => runFurther bracket item state rest
      | .error fault => .error fault
    else .error bracket.separator
termination_by text.length
decreasing_by
  have bound := run_length_le _ _step
  have shorter := Text.length_lt_of_dropBlanks _front
  omega

theorem runFurther_suffix {bracket : Bracket} {item : σ → Reader σ} {state result : σ}
    {text rest : List Char} (done : runFurther bracket item state text = .ok (result, rest)) :
    rest <:+ text := by
  fun_induction runFurther bracket item state text with
  | case1 => cases done
  | case2 state text left front =>
    cases done
    exact Text.suffix_of_dropBlanks front
  | case3 state text left next following step front other ih =>
    exact (ih done).trans ((run_suffix _ step).trans (Text.suffix_of_dropBlanks front))
  | case4 => cases done
  | case5 => cases done

def further (bracket : Bracket) (item : σ → Reader σ) (state : σ) : Reader σ where
  run := runFurther bracket item state
  run_suffix := runFurther_suffix

theorem run_further (bracket : Bracket) (item : σ → Reader σ) (state : σ) (text : List Char) :
    (further bracket item state).run text =
      match Text.dropBlanks text with
      | [] => .error bracket.unfinished
      | c :: rest =>
        if c = bracket.closer then .ok (state, rest)
        else if c = ',' then (behindComma bracket (item state) >>= further bracket item).run rest
        else .error bracket.separator := by
  change runFurther bracket item state text = _
  rw [runFurther]
  split
  next front => rw [front]
  next front =>
    rw [front]
    simp only [run_bind]
    split
    · rfl
    · split
      · split
        next step =>
          rw [step]
          rfl
        next step => rw [step]
      · rfl

/-- Items up to the closing bracket, behind the opening one. -/
def enclosed (bracket : Bracket) (item : σ → Reader σ) (state : σ) : Reader σ := do
  match ← peek with
  | none => fail bracket.unfinished
  | some c =>
    if c = bracket.closer then
      discard next
      pure state
    else further bracket item (← item state)

def items (item : Reader α) : Reader (List α) := do
  let found ← enclosed .list (fun found => found.push <$> item) #[]
  pure found.toList

end Reader

end CantoScan.Json
