import CantoScan.Json.Reader

/-! The inside of a JSON string, from behind the opening quotation mark to the closing one. -/

namespace CantoScan.Json.Reader

def hexDigit? (c : Char) : Option Nat :=
  if c.isDigit then some (c.toNat - '0'.toNat)
  else if 'a' ≤ c ∧ c ≤ 'f' then some (c.toNat - 'a'.toNat + 10)
  else if 'A' ≤ c ∧ c ≤ 'F' then some (c.toNat - 'A'.toNat + 10)
  else none

def hexValue? (digits : List Char) : Option Nat :=
  digits.foldlM (fun value c => (hexDigit? c).map (16 * value + ·)) 0

def byteCount (text : List Char) : Nat := text.foldl (fun count c => count + c.utf8Size) 0

/-- Four hexadecimal digits. A text with fewer than four bytes left has ended too early, whatever
those bytes are. -/
def hexEscape : Reader Nat where
  run text :=
    let digits := text.take 4
    if byteCount digits < 4 then .error .endOfString
    else match hexValue? digits, digits.length with
      | some value, 4 => .ok (value, text.drop 4)
      | _, _ => .error .invalidEscape
  run_suffix done := by
    dsimp only at done
    split at done
    · cases done
    · split at done
      · cases done
        exact List.drop_suffix 4 _
      · cases done

def isLeadingSurrogate (unit : Nat) : Bool := 0xD800 ≤ unit && unit ≤ 0xDBFF

def isTrailingSurrogate (unit : Nat) : Bool := 0xDC00 ≤ unit && unit ≤ 0xDFFF

/-- The beginning of the escape that has to follow a leading surrogate. -/
def surrogateMark (mark : Char) : Reader Unit := do
  match ← next with
  | none => fail .endOfString
  | some c => if c = mark then pure () else fail .unfinishedSurrogate

def unicodeEscape : Reader Char := do
  let unit ← hexEscape
  if isTrailingSurrogate unit then fail .loneSurrogate
  else if isLeadingSurrogate unit then
    surrogateMark '\\'
    surrogateMark 'u'
    let second ← hexEscape
    if isTrailingSurrogate second then
      pure (Char.ofNat (0x10000 + (unit - 0xD800) * 0x400 + (second - 0xDC00)))
    else fail .loneSurrogate
  else pure (Char.ofNat unit)

def shortEscape? (c : Char) : Option Char :=
  if c = '"' ∨ c = '\\' ∨ c = '/' then some c
  else if c = 'b' then some '\x08'
  else if c = 'f' then some '\x0C'
  else if c = 'n' then some '\n'
  else if c = 'r' then some '\r'
  else if c = 't' then some '\t'
  else none

/-- What follows a backslash, with a given reader for four-digit escapes. -/
def escapeWith (unicode : Reader Char) : Reader Char := do
  match ← next with
  | none => fail .endOfString
  | some c =>
    match shortEscape? c with
    | some meant => pure meant
    | none => if c = 'u' then unicode else fail .invalidEscape

def escape : Reader Char := escapeWith unicodeEscape

/-- Looks only at the form of an escape, so surrogates may stand alone. -/
def looseEscape : Reader Char := escapeWith do
  discard hexEscape
  pure '\uFFFD'

def runStringBody (escape : Reader Char) (text read : List Char) :
    Except Fault (List Char × List Char) :=
  match text with
  | [] => .error .endOfString
  | c :: rest =>
    if c = '"' then .ok (read.reverse, rest)
    else if c = '\\' then
      match _step : escape.run rest with
      | .ok (meant, rest) => runStringBody escape rest (meant :: read)
      | .error fault => .error fault
    else if c.toNat < 0x20 then .error .controlCharacter
    else runStringBody escape rest (c :: read)
termination_by text.length
decreasing_by
  · have bound := run_length_le _ _step
    rw [List.length_cons]
    omega
  · rw [List.length_cons]
    omega

theorem runStringBody_suffix {escape : Reader Char} {text read found rest : List Char}
    (done : runStringBody escape text read = .ok (found, rest)) : rest <:+ text := by
  fun_induction runStringBody escape text read with
  | case1 => cases done
  | case2 =>
    cases done
    exact List.suffix_cons _ _
  | case3 read left meant following step _ ih =>
    exact (ih done).trans ((run_suffix _ step).trans (List.suffix_cons _ left))
  | case4 => cases done
  | case5 => cases done
  | case6 read c left _ _ _ ih => exact (ih done).trans (List.suffix_cons c left)

theorem runStringBody_cons (escape : Reader Char) (c : Char) (rest read : List Char) :
    runStringBody escape (c :: rest) read =
      if c = '"' then .ok (read.reverse, rest)
      else if c = '\\' then
        match escape.run rest with
        | .ok (meant, rest) => runStringBody escape rest (meant :: read)
        | .error fault => .error fault
      else if c.toNat < 0x20 then .error .controlCharacter
      else runStringBody escape rest (c :: read) := by
  rw [runStringBody]
  split
  · rfl
  · split
    · split
      next step => rw [step]
      next step => rw [step]
    · rfl

def stringBody (escape : Reader Char) : Reader (List Char) where
  run text := runStringBody escape text []
  run_suffix := runStringBody_suffix

def string : Reader String := String.ofList <$> stringBody escape

def key : Reader String := do
  match ← peek with
  | some '"' =>
    discard next
    string
  | _ => fail .keyNotString

def skipString : Reader Unit := discard (stringBody looseEscape)

end CantoScan.Json.Reader
