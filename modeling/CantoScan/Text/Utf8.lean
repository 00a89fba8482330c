/-! Text as UTF-8 bytes, and bytes cut into lines. A character is accepted only in its shortest form. -/

namespace CantoScan.Text

/-- How many bytes follow a leading byte, and the bits that it carries itself. -/
def leading? (byte : UInt8) : Option (Nat × Nat) :=
  let n := byte.toNat
  if n < 0x80 then some (0, n)
  else if n < 0xC0 then none
  else if n < 0xE0 then some (1, n - 0xC0)
  else if n < 0xF0 then some (2, n - 0xE0)
  else if n < 0xF8 then some (3, n - 0xF0)
  else none

def isContinuation (byte : UInt8) : Bool := 0x80 ≤ byte.toNat && byte.toNat < 0xC0

/-- The least code point that needs this many bytes behind the first. -/
def leastPoint : Nat → Nat
  | 0 => 0
  | 1 => 0x80
  | 2 => 0x800
  | _ => 0x10000

def combine (high : Nat) (bytes : List UInt8) : Nat :=
  bytes.foldl (fun point byte => 64 * point + (byte.toNat - 0x80)) high

/-- The character that begins with this byte, and the bytes behind it. -/
def decodeChar? (byte : UInt8) (rest : List UInt8) : Option (Char × List UInt8) :=
  match leading? byte with
  | none => none
  | some (count, high) =>
    let bytes := rest.take count
    let point := combine high bytes
    let complete := bytes.length = count ∧ bytes.all isContinuation
    if complete ∧ leastPoint count ≤ point ∧ point.isValidChar then
      some (Char.ofNat point, rest.drop count)
    else none

theorem decodeChar?_length_le {byte : UInt8} {rest after : List UInt8} {c : Char}
    (found : decodeChar? byte rest = some (c, after)) : after.length ≤ rest.length := by
  unfold decodeChar? at found
  split at found
  · cases found
  · dsimp only at found
    split at found
    · cases found
      exact (List.drop_suffix _ rest).length_le
    · cases found

def decodeOnto (bytes : List UInt8) (read : List Char) : Option (List Char) :=
  match bytes with
  | [] => some read.reverse
  | byte :: rest =>
    match _found : decodeChar? byte rest with
    | none => none
    | some (c, rest) => decodeOnto rest (c :: read)
termination_by bytes.length
decreasing_by
  have bound := decodeChar?_length_le _found
  rw [List.length_cons]
  omega

theorem decodeOnto_cons (byte : UInt8) (rest : List UInt8) (read : List Char) :
    decodeOnto (byte :: rest) read =
      (decodeChar? byte rest).bind fun found => decodeOnto found.2 (found.1 :: read) := by
  rw [decodeOnto]
  split
  next found => rw [found, Option.bind_none]
  next found => rw [found, Option.bind_some]

def decode? (bytes : List UInt8) : Option String := (decodeOnto bytes []).map String.ofList

def lineFeed : UInt8 := 10

def carriageReturn : UInt8 := 13

/-- A line, last byte first, without the carriage return at its end. -/
def dropReturn : List UInt8 → List UInt8
  | [] => []
  | byte :: line => if byte = carriageReturn then line else byte :: line

/-- Goes on with a line of which the bytes read so far are given last first. -/
def linesOnto (line : List UInt8) : List UInt8 → List (List UInt8)
  | [] => if line.isEmpty then [] else [line.reverse]
  | byte :: bytes =>
    if byte = lineFeed then (dropReturn line).reverse :: linesOnto [] bytes
    else linesOnto (byte :: line) bytes

/-- The lines of a stream. A line feed ends a line, together with one carriage return before it; bytes
behind the last line feed are a line of their own if there are any. -/
def lines (bytes : List UInt8) : List (List UInt8) := linesOnto [] bytes

end CantoScan.Text
