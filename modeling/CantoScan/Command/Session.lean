import CantoScan.Listing
import CantoScan.Log
import CantoScan.Text.Utf8

/-! A session over a stream of lines. Each line is scanned by itself and its tokens are listed without
the one at the end; a prompt stands in front of every line and behind the last. -/

namespace CantoScan.Command

/-- What a session writes, and whether it came to the end of its input. -/
structure Transcript where
  output : String
  records : List Log.Record
  complete : Bool
  deriving DecidableEq

namespace Transcript

def prompt : String := ">> "

/-- The lines in front of the first that is no text. -/
def readable : List (List UInt8) → List String
  | [] => []
  | line :: lines =>
    match Text.decode? line with
    | none => []
    | some source => source :: readable lines

/-- The listing of one line, and the prompt for the next. -/
def reply (table : SymbolTable) (listing : Listing) (source : String) : String :=
  listing.render ((listing.select (table.tokenize source)).filter (!·.isEnd)) ++ prompt

def ofInput (table : SymbolTable) (listing : Listing) (input : List UInt8) : Transcript :=
  let lines := Text.lines input
  let sources := readable lines
  let complete := sources.length = lines.length
  { output :=
      prompt ++ String.join (sources.map (reply table listing)) ++ if complete then "\n" else ""
    records := sources.flatMap fun source => Log.scannedAll (table.tokenize source)
    complete }

end Transcript

end CantoScan.Command
