/-! The arguments of the command line. Options may stand before or after the subcommand, each once on
either side; what stands after the subcommand counts in case of doubt. Behind `--` every argument is
a name. -/

namespace CantoScan.Command

/-- The options of one side of the subcommand. -/
structure Options where
  ascii : Bool := false
  wordOperators : Bool := false
  json : Bool := false
  skipComments : Bool := false
  symbols : Option String := none
  deriving DecidableEq

namespace Options

def join (inner outer : Options) : Options where
  ascii := inner.ascii || outer.ascii
  wordOperators := inner.wordOperators || outer.wordOperators
  json := inner.json || outer.json
  skipComments := inner.skipComments || outer.skipComments
  symbols := inner.symbols <|> outer.symbols

/-- Turns a flag on. A flag is refused if it is on already or unknown. -/
def withFlag (options : Options) (name : String) : Option Options :=
  if name = "ascii" then if options.ascii then none else some { options with ascii := true }
  else if name = "word-operators" then
    if options.wordOperators then none else some { options with wordOperators := true }
  else if name = "json" then if options.json then none else some { options with json := true }
  else if name = "skip-comments" then
    if options.skipComments then none else some { options with skipComments := true }
  else none

def withSymbols (options : Options) (path : String) : Option Options :=
  if path = "" ∨ options.symbols.isSome then none else some { options with symbols := some path }

end Options

inductive Subcommand where
  | tokens
  | check
  | session
  deriving DecidableEq

namespace Subcommand

def ofName? (name : String) : Option Subcommand :=
  if name = "tokens" then some .tokens
  else if name = "check" then some .check
  else if name = "repl" then some .session
  else none

end Subcommand

inductive Task where
  | tokens (path : String)
  | check (path : String)
  | session
  | nothing
  deriving DecidableEq

inductive Request where
  | version
  | run (task : Task) (options : Options)
  deriving DecidableEq

/-- Whether an argument is an option or the mark behind which there are none. A lone dash is a name. -/
def isOption (argument : String) : Bool := argument.startsWith "-" && argument ≠ "-"

/-- The name of a long option and the value behind its equals sign. -/
def splitLong (argument : String) : String × Option String :=
  let body := argument.toList.drop 2
  let name := String.ofList (body.takeWhile (· ≠ '='))
  match body.dropWhile (· ≠ '=') with
  | [] => (name, none)
  | _ :: value => (name, some (String.ofList value))

/-- What the arguments read so far have settled. The file is the one of the present side. -/
structure Parsed where
  outer : Options
  options : Options
  subcommand : Option Subcommand
  file : Option String
  namesOnly : Bool

namespace Parsed

def start : Parsed := ⟨{}, {}, none, none, false⟩

def name (parsed : Parsed) (argument : String) : Option Parsed :=
  let file : Option Parsed :=
    if argument = "" ∨ parsed.file.isSome ∨ parsed.subcommand = some .session then none
    else some { parsed with file := some argument }
  if parsed.namesOnly ∨ parsed.subcommand.isSome then file
  else match Subcommand.ofName? argument with
    | some subcommand =>
      some { parsed with outer := parsed.options, options := {}, subcommand, file := none }
    | none => file

def finish (parsed : Parsed) : Option Request :=
  let request (task : Task) : Option Request := some (.run task (parsed.options.join parsed.outer))
  match parsed.subcommand, parsed.file with
  | none, none => request .nothing
  | none, some path => request (.tokens path)
  | some .tokens, some path => request (.tokens path)
  | some .check, some path => request (.check path)
  | some .session, _ => request .session
  | some _, none => none

/-- An option by its long name, without the dashes, and the value given behind an equals sign. -/
def long (parsed : Parsed) (name : String) (value : Option String) : Option Parsed :=
  match value with
  | none => (parsed.options.withFlag name).map fun options => { parsed with options }
  | some value =>
    if name = "symbols" then
      (parsed.options.withSymbols value).map fun options => { parsed with options }
    else none

/-- Asks for the version: the long option, or a group of short options that begins with its letter.
It is known only in front of a subcommand. -/
def asksVersion (parsed : Parsed) (argument : String) : Bool :=
  parsed.subcommand.isNone && (argument = "--version" || argument.startsWith "-V")

def read (parsed : Parsed) : List String → Option Request
  | [] => parsed.finish
  | argument :: arguments =>
    if parsed.namesOnly ∨ isOption argument = false then do
      (← parsed.name argument).read arguments
    else if argument = "--" then { parsed with namesOnly := true }.read arguments
    else if asksVersion parsed argument then some .version
    else if argument = "--symbols" then
      match arguments with
      | [] => none
      | value :: arguments =>
        if isOption value then none else do
          (← parsed.long "symbols" (some value)).read arguments
    else if argument.startsWith "--" then
      let option := splitLong argument
      do (← parsed.long option.1 option.2).read arguments
    else none

end Parsed

def parse (arguments : List String) : Option Request := Parsed.start.read arguments

end CantoScan.Command
