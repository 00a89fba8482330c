import CantoScan.Unicode.DefaultIgnorable
import CantoScan.Unicode.GraphemeExtend
import CantoScan.Unicode.Printable

/-! Quoted texts and characters. Whatever has no shape of its own, or would join the character
before it, is written as its code point, so a quoted text stays on one line. -/

namespace CantoScan.Text

/-- The sound marks of halfwidth kana belong to the letter before them, but take a cell of their own. -/
def isHalfwidthSoundMark (c : Char) : Bool := c.toNat = 0xFF9E || c.toNat = 0xFF9F

/-- Marks that are drawn on the character before them. -/
def joinsBefore (c : Char) : Bool := Unicode.isGraphemeExtend c && !isHalfwidthSoundMark c

/-- Characters that can be told from their neighbours where they stand. -/
def isLegible (c : Char) : Bool :=
  Unicode.isPrintable c && !Unicode.isDefaultIgnorable c && !joinsBefore c

def escapeCodePoint (c : Char) : List Char := ['\\', 'u', '{'] ++ Nat.toDigits 16 c.toNat ++ ['}']

/-- One character as it stands between two quotation marks. -/
def escape (mark c : Char) : List Char :=
  if c = '\x00' then ['\\', '0']
  else if c = '\t' then ['\\', 't']
  else if c = '\r' then ['\\', 'r']
  else if c = '\n' then ['\\', 'n']
  else if c = '\\' ∨ c = mark then ['\\', c]
  else if isLegible c then [c]
  else escapeCodePoint c

def quoteWith (mark : Char) (text : List Char) : String :=
  String.ofList (mark :: text.flatMap (escape mark) ++ [mark])

def quote (text : String) : String := quoteWith '"' text.toList

def quoteChar (c : Char) : String := quoteWith '\'' [c]

end CantoScan.Text
