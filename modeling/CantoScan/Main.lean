import CantoScan.Command.Run

/-! The command line. It gathers the arguments, the files that they name, the standard input of a
session and the log threshold, and writes the outcome. -/

namespace CantoScan.Command

/-- The fault behind an error number of the system. Some calls give the number with a minus sign. -/
def faultOfCode (code : UInt32) : Option ReadFault :=
  let number := if code < 0x80000000 then code else 0 - code
  if number = 2 then some .missing
  else if number = 20 then some .notDirectory
  else if number = 21 then some .directory
  else if number = 36 then some .nameTooLong
  else none

def faultOf (error : IO.Error) : ReadFault :=
  let code := match error with
    | .noFileOrDirectory _ code _ => some code
    | .noSuchThing _ code _ => some code
    | .inappropriateType _ code _ => some code
    | .invalidArgument _ code _ => some code
    | _ => none
  (code.bind faultOfCode).getD (.other error.toString)

def fetch (path : String) : IO (String × Except ReadFault (List UInt8)) := do
  try
    let bytes ← IO.FS.readBinFile path
    return (path, .ok bytes.toList)
  catch error => return (path, .error (faultOf error))

def Task.path? : Task → Option String
  | .tokens path | .check path => some path
  | _ => none

def gather (task : Task) (options : Options) : IO Surroundings := do
  let paths := options.symbols.toList ++ task.path?.toList
  let files ← paths.mapM fetch
  let input ← if task = .session then (← IO.getStdin).readBinToEnd else pure .empty
  let level ← IO.getEnv "RUST_LOG"
  return {
    file := fun path => (files.lookup path).getD (.error .missing)
    input := input.toList
    threshold := (level.bind Log.Level.threshold?).getD Log.Level.error.rank }

end CantoScan.Command

open CantoScan.Command in
def main (arguments : List String) : IO UInt32 := do
  match parse arguments with
  | none =>
    IO.eprintln "error: invalid arguments"
    return 2
  | some request =>
    let surroundings ← match request with
      | .version => pure ⟨fun _ => .error .missing, [], 0⟩
      | .run task options => gather task options
    let outcome := answer surroundings request
    IO.print outcome.stdout
    IO.eprint outcome.stderr
    return outcome.exit.toUInt32
