import CantoScan.Json.Printer
import CantoScan.Scan.Cursor

/-! Listings of tokens, as lines of text or as JSON. -/

namespace CantoScan

def Span.toValue (span : Span) : Json.Value :=
  let field (name : String) (n : Nat) := (name, Json.Value.number (.integer n))
  .object [field "start" span.start, field "end" span.stop, field "line" span.line,
    field "column" span.column]

namespace Token

def toValue (token : Token) : Json.Value :=
  .object [("kind", .string token.kind.name), ("literal", .string token.literal),
    ("span", token.span.toValue)]

def line (token : Token) : String := s!"{token.label} @{token.span.label}\n"

end Token

structure Listing where
  json : Bool
  skipComments : Bool
  deriving DecidableEq

namespace Listing

def textOf (tokens : List Token) : String := String.join (tokens.map Token.line)

def jsonOf (tokens : List Token) : String := (Json.Value.list (tokens.map Token.toValue)).pretty ++ "\n"

def render (listing : Listing) (tokens : List Token) : String :=
  if listing.json then jsonOf tokens else textOf tokens

def select (listing : Listing) (tokens : List Token) : List Token :=
  tokens.filter fun token => !(listing.skipComments && token.kind = .comment)

end Listing

end CantoScan
