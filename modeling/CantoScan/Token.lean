import CantoScan.Kind
import CantoScan.Source.Position
import CantoScan.Text.Quoted

/-! Tokens: a kind, the exact source text, and where that text stands. -/

namespace CantoScan

structure Token where
  kind : Kind
  literal : String
  span : Span
  deriving DecidableEq

namespace Token

/-- The token behind the last character of a source. -/
def atEnd (span : Span) : Token := ⟨.endOfInput, "", span⟩

def isEnd (token : Token) : Bool := token.kind = .endOfInput

/-- Kind and quoted literal. -/
def label (token : Token) : String := s!"{token.kind.name}({Text.quote token.literal})"

end Token

end CantoScan
