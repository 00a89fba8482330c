import CantoScan.Command.Arguments
import CantoScan.Command.Hint
import CantoScan.Command.Session

/-! Carrying out a request. The files, the standard input and the log threshold are given as values,
and so is the result: an exit code and the text for either output. -/

namespace CantoScan.Command

inductive ReadFault where
  | missing
  | directory
  | notDirectory
  | nameTooLong
  | notText
  | other (message : String)
  deriving DecidableEq

namespace ReadFault

def message : ReadFault → String
  | .missing => "No such file or directory (os error 2)"
  | .directory => "Is a directory (os error 21)"
  | .notDirectory => "Not a directory (os error 20)"
  | .nameTooLong => "File name too long (os error 36)"
  | .notText => "stream did not contain valid UTF-8"
  | .other message => message

end ReadFault

/-- What a request is carried out in. Records above the threshold are not shown. -/
structure Surroundings where
  file : String → Except ReadFault (List UInt8)
  input : List UInt8
  threshold : Nat

inductive Failure where
  | tableUnread (path : String) (fault : ReadFault)
  | tableUnloaded (path : String) (fault : LoadFault)
  | tableUnsound (fault : TableFault)
  | sourceUnread (path : String) (fault : ReadFault)
  | inputUnread (fault : ReadFault)
  deriving DecidableEq

namespace Failure

def message : Failure → String
  | .tableUnread path fault => s!"reading symbol table {path}: {fault.message}"
  | .tableUnloaded path fault => s!"parsing symbol table {path}: {fault.diagnostic.message}"
  | .tableUnsound fault => s!"checking symbol table: {fault.diagnostic.message}"
  | .sourceUnread path fault => s!"reading {path}: {fault.message}"
  | .inputUnread fault => s!"reading standard input: {fault.message}"

end Failure

structure Outcome where
  exit : Nat
  stdout : String
  stderr : String
  deriving DecidableEq

/-- A result, with the log records made on the way to it. -/
structure Logged (α : Type) where
  records : List Log.Record
  result : Except Failure α

namespace Logged

variable {α β : Type}

def andThen (first : Logged α) (second : α → Logged β) : Logged β :=
  match first.result with
  | .error failure => ⟨first.records, .error failure⟩
  | .ok value =>
    let next := second value
    ⟨first.records ++ next.records, next.result⟩

instance : Monad Logged where
  pure value := ⟨[], .ok value⟩
  bind := andThen

def record (records : List Log.Record) : Logged Unit := ⟨records, .ok ()⟩

def ofExcept (result : Except Failure α) : Logged α := ⟨[], result⟩

@[simp] theorem result_pure (value : α) : (pure value : Logged α).result = .ok value := rfl

@[simp] theorem result_record (records : List Log.Record) : (record records).result = .ok () := rfl

@[simp] theorem result_ofExcept (result : Except Failure α) : (ofExcept result).result = result := rfl

/-- Records never change what comes of an operation. -/
@[simp] theorem result_bind (first : Logged α) (second : α → Logged β) :
    (first >>= second).result = first.result.bind fun value => (second value).result := by
  obtain ⟨records, result⟩ := first
  cases result <;> rfl

end Logged

def note (level : Log.Level) (message : String) : Logged Unit :=
  .record [⟨level, Log.commandTarget, message⟩]

@[simp] theorem result_note (level : Log.Level) (message : String) : (note level message).result = .ok () :=
  rfl

def readText (surroundings : Surroundings) (path : String) : Except ReadFault String := do
  match Text.decode? (← surroundings.file path) with
  | some text => pure text
  | none => throw .notText

def fileTable (surroundings : Surroundings) (path : String) : Logged SymbolTable := do
  note .info s!"loading symbol table from {path}"
  let text ← .ofExcept ((readText surroundings path).mapError (.tableUnread path))
  let table ← .ofExcept ((SymbolTable.load text).mapError (.tableUnloaded path))
  .record [Log.loaded table]
  pure table

def offering (message : String) (spellings : List (Char × Kind)) (table : SymbolTable) :
    Logged SymbolTable := do
  note .debug message
  .record (Log.declined table spellings)
  pure (table.offerAll spellings)

def chosenTable (surroundings : Surroundings) (options : Options) : Logged SymbolTable := do
  let base ← match options.symbols with
    | some path => fileTable surroundings path
    | none => pure .cantonese
  let punctuated ←
    if options.ascii then offering "enabling ASCII punctuation aliases" SymbolTable.asciiPunctuation base
    else pure base
  let table ←
    if options.wordOperators then offering "enabling word operators" SymbolTable.wordOperators punctuated
    else pure punctuated
  .ofExcept (table.validate.mapError .tableUnsound)
  pure table

def sourceText (surroundings : Surroundings) (path : String) : Logged String := do
  note .info s!"reading {path}"
  .ofExcept ((readText surroundings path).mapError (.sourceUnread path))

def sourceTokens (surroundings : Surroundings) (table : SymbolTable) (path : String) :
    Logged (List Token) := do
  let tokens := table.tokenize (← sourceText surroundings path)
  .record (Log.scannedAll tokens)
  pure tokens

def Options.listing (options : Options) : Listing := ⟨options.json, options.skipComments⟩

def listTokens (surroundings : Surroundings) (table : SymbolTable) (listing : Listing) (path : String) :
    Logged Outcome := do
  let tokens ← sourceTokens surroundings table path
  pure ⟨0, listing.render (listing.select tokens), ""⟩

/-- One line for an invalid token, none for any other. -/
def complaint (table : SymbolTable) (path : String) (token : Token) : String :=
  match token.checked with
  | .ok _ => ""
  | .error diagnostic =>
    let place := (diagnostic.span?.map fun span => s!":{span.label}").getD ""
    s!"{path}{place}: {diagnostic.explain table}\n"

def checkTokens (surroundings : Surroundings) (table : SymbolTable) (path : String) :
    Logged Outcome := do
  let tokens ← sourceTokens surroundings table path
  if tokens.any (·.kind = .invalid) then
    pure ⟨1, "", String.join (tokens.map (complaint table path))⟩
  else pure ⟨0, s!"✅ No invalid characters in {path}\n", ""⟩

def usageHint : String :=
  "Error: No input file specified\nUsage: cantolex <FILE> or cantolex tokens <FILE>\n"

def failureExit : Nat := 2

def Outcome.ofFailure (output : String) (failure : Failure) : Outcome :=
  ⟨failureExit, output, s!"Error: {failure.message}\n"⟩

def runSession (surroundings : Surroundings) (table : SymbolTable) (listing : Listing) :
    Logged Outcome := do
  let transcript := Transcript.ofInput table listing surroundings.input
  .record transcript.records
  if transcript.complete then pure ⟨0, transcript.output, ""⟩
  else pure (.ofFailure transcript.output (.inputUnread .notText))

def perform (surroundings : Surroundings) (task : Task) (options : Options) : Logged Outcome := do
  let table ← chosenTable surroundings options
  match task with
  | .tokens path => listTokens surroundings table options.listing path
  | .check path => checkTokens surroundings table path
  | .session => runSession surroundings table options.listing
  | .nothing => pure ⟨1, "", usageHint⟩

def run (surroundings : Surroundings) (task : Task) (options : Options) : Outcome :=
  let logged := perform surroundings task options
  let outcome := match logged.result with
    | .ok outcome => outcome
    | .error failure => .ofFailure "" failure
  { outcome with stderr := Log.render surroundings.threshold logged.records ++ outcome.stderr }

def versionText : String := "cantolex 0.1.0\n"

def answer (surroundings : Surroundings) : Request → Outcome
  | .version => ⟨0, versionText, ""⟩
  | .run task options => run surroundings task options

end CantoScan.Command
