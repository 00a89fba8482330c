import CantoScan.Command.Run
import CantoScan.Proofs.TableEntries

/-! The table that a command works with. It starts from the built-in table or from a file and takes in
the spellings that are asked for; the check at the end never finds a fault. -/

namespace CantoScan.Proofs.TableLoading
open Command TableRules TableEntries

def tableOfFile (surroundings : Surroundings) (path : String) : Except Failure SymbolTable :=
  ((readText surroundings path).mapError (.tableUnread path)).bind fun text =>
    (SymbolTable.load text).mapError (.tableUnloaded path)

/-- The table that the options name, without further spellings. -/
def baseTable (surroundings : Surroundings) (options : Options) : Except Failure SymbolTable :=
  match options.symbols with
  | none => .ok .cantonese
  | some path => tableOfFile surroundings path

def punctuated (options : Options) (base : SymbolTable) : SymbolTable :=
  if options.ascii then base.withAsciiPunctuation else base

/-- A table with the further spellings that the options ask for. -/
def extended (options : Options) (base : SymbolTable) : SymbolTable :=
  if options.wordOperators then (punctuated options base).withWordOperators else punctuated options base

private theorem bind_eq_ok {ε α β : Type} {first : Except ε α} {second : α → Except ε β} {value : β} :
    first.bind second = .ok value ↔ ∃ middle, first = .ok middle ∧ second middle = .ok value := by
  cases first <;> simp [Except.bind]

private theorem tableOfFile_eq_ok {surroundings : Surroundings} {path : String} {table : SymbolTable} :
    tableOfFile surroundings path = .ok table ↔
      ∃ text, readText surroundings path = .ok text ∧ SymbolTable.load text = .ok table := by
  simp only [tableOfFile, bind_eq_ok, mapError_eq_ok]

theorem baseTable_obtainable {surroundings : Surroundings} {options : Options} {base : SymbolTable}
    (found : baseTable surroundings options = .ok base) : Obtainable base := by
  unfold baseTable at found
  split at found
  · cases found
    exact .cantonese
  · obtain ⟨text, _, loaded⟩ := tableOfFile_eq_ok.mp found
    exact .load loaded

private theorem punctuated_obtainable (options : Options) {base : SymbolTable} (obtained : Obtainable base) :
    Obtainable (punctuated options base) := by
  unfold punctuated
  split
  · exact .asciiPunctuation obtained
  · exact obtained

private theorem extended_obtainable (options : Options) {base : SymbolTable} (obtained : Obtainable base) :
    Obtainable (extended options base) := by
  have before := punctuated_obtainable options obtained
  unfold extended
  split
  · exact .wordOperators before
  · exact before

private theorem result_fileTable (surroundings : Surroundings) (path : String) :
    (fileTable surroundings path).result = tableOfFile surroundings path := by
  simp only [fileTable, tableOfFile, Logged.result_bind, result_note, Logged.result_ofExcept,
    Logged.result_record, Logged.result_pure]
  cases readText surroundings path with
  | error fault => rfl
  | ok text => cases loaded : SymbolTable.load text <;> simp [Except.bind, Except.mapError, loaded]

private theorem result_offering (message : String) (spellings : List (Char × Kind)) (table : SymbolTable) :
    (offering message spellings table).result = .ok (table.offerAll spellings) :=
  rfl

private theorem ok_bind {α : Type} (table : SymbolTable) (next : SymbolTable → Except Failure α) :
    (Except.ok table).bind next = next table :=
  rfl

/-- A command checks the table only after all spellings have been taken in. -/
theorem result_chosenTable (surroundings : Surroundings) (options : Options) :
    (chosenTable surroundings options).result =
      (baseTable surroundings options).bind fun base =>
        ((extended options base).validate.mapError .tableUnsound).bind fun _ =>
          .ok (extended options base) := by
  unfold chosenTable baseTable
  cases ascii : options.ascii <;> cases words : options.wordOperators <;> cases options.symbols <;>
    simp [result_fileTable, result_offering, ok_bind, extended, punctuated, ascii, words,
      SymbolTable.withAsciiPunctuation, SymbolTable.withWordOperators]

theorem result_chosenTable_eq (surroundings : Surroundings) (options : Options) :
    (chosenTable surroundings options).result =
      (baseTable surroundings options).map (extended options) := by
  rw [result_chosenTable]
  cases found : baseTable surroundings options with
  | error failure => rfl
  | ok base =>
    have sound := (extended_obtainable options (baseTable_obtainable found)).sound
    rw [ok_bind, validate_of_sound sound]
    rfl

theorem chosenTable_obtainable {surroundings : Surroundings} {options : Options} {table : SymbolTable}
    (chosen : (chosenTable surroundings options).result = .ok table) : Obtainable table := by
  rw [result_chosenTable_eq] at chosen
  cases found : baseTable surroundings options with
  | error failure =>
    rw [found] at chosen
    cases chosen
  | ok base =>
    rw [found] at chosen
    cases chosen
    exact extended_obtainable options (baseTable_obtainable found)

private theorem baseTable_ne_unsound (surroundings : Surroundings) (options : Options) (fault : TableFault) :
    baseTable surroundings options ≠ .error (.tableUnsound fault) := by
  unfold baseTable tableOfFile
  cases options.symbols with
  | none => simp
  | some path =>
    cases read : readText surroundings path with
    | error other => simp [Except.mapError, Except.bind, read]
    | ok text => cases loaded : SymbolTable.load text <;> simp [Except.mapError, Except.bind, read, loaded]

/-- The check at the end of loading refuses no table, so only reading the file can fail. -/
structure NeverRefused (surroundings : Surroundings) (options : Options) : Prop where
  result : (chosenTable surroundings options).result =
    (baseTable surroundings options).map (extended options)
  accepted : ∀ fault, (chosenTable surroundings options).result ≠ .error (.tableUnsound fault)
  builtin : options.symbols = none →
    (chosenTable surroundings options).result = .ok (extended options .cantonese)
  file : ∀ path text base, options.symbols = some path → readText surroundings path = .ok text →
    SymbolTable.load text = .ok base →
      (chosenTable surroundings options).result = .ok (extended options base)

theorem neverRefused (surroundings : Surroundings) (options : Options) :
    NeverRefused surroundings options := by
  have result := result_chosenTable_eq surroundings options
  refine ⟨result, ?_, ?_, ?_⟩
  · intro fault unsound
    rw [result] at unsound
    cases found : baseTable surroundings options with
    | error failure =>
      rw [found] at unsound
      cases unsound
      exact baseTable_ne_unsound surroundings options fault found
    | ok base =>
      rw [found] at unsound
      cases unsound
  · intro builtin
    rw [result, baseTable, builtin]
    rfl
  · intro path text base named read loaded
    have found : baseTable surroundings options = .ok base := by
      rw [baseTable, named]
      exact tableOfFile_eq_ok.mpr ⟨text, read, loaded⟩
    rw [result, found]
    rfl

/-- Every table that can be made keeps the rules and passes the check, so no command refuses a table
that was read without a fault, whatever spellings are asked for. -/
theorem obtainable_validated {table : SymbolTable} (obtained : Obtainable table) :
    Sound table ∧ table.validate = .ok () ∧
      ∀ surroundings options, NeverRefused surroundings options :=
  ⟨obtained.sound, validate_of_sound obtained.sound, neverRefused⟩

/-- An insertion that succeeds, one that fails, and a spelling that is bound already. -/
theorem obtainable_validated_attempts :
    let table := (attempt (attempt .cantonese "(" .add) "1" .add).withAsciiPunctuation
    Obtainable table ∧ Sound table ∧ table.validate = .ok () ∧
      ∀ surroundings options, NeverRefused surroundings options := by
  intro table
  have obtained : Obtainable table := .asciiPunctuation (.insert _ _ (.insert _ _ .cantonese))
  exact ⟨obtained, obtainable_validated obtained⟩

end CantoScan.Proofs.TableLoading
