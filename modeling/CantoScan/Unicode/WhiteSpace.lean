import CantoScan.Unicode.Interval

/-! The White_Space property of the Unicode Character Database. It is wider than the set of blanks
between tokens. -/

namespace CantoScan.Unicode

def whiteSpaceIntervals : List Interval :=
  [(0x9, 0xD), (0x20, 0x20), (0x85, 0x85), (0xA0, 0xA0), (0x1680, 0x1680), (0x2000, 0x200A),
   (0x2028, 0x2029), (0x202F, 0x202F), (0x205F, 0x205F), (0x3000, 0x3000)]

def isWhiteSpace (c : Char) : Bool := covers whiteSpaceIntervals c.toNat

end CantoScan.Unicode
