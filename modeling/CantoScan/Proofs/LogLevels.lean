import CantoScan.Command.Run

/-! The levels of log records. Nothing that a command does is logged as an error, so a log that is cut
off at errors is empty, and standard error shows what the command itself writes there. -/

namespace CantoScan.Proofs.LogLevels
open Command

/-- Records of which none is an error. -/
def Quiet (records : List Log.Record) : Prop := ∀ record ∈ records, record.level ≠ .error

private theorem error_rank_lt {level : Log.Level} (other : level ≠ .error) :
    Log.Level.error.rank < level.rank := by
  cases level with
  | error => exact absurd rfl other
  | warn | info | debug | trace => decide

private theorem render_of_quiet {threshold : Nat} (low : threshold ≤ Log.Level.error.rank)
    {records : List Log.Record} (quiet : Quiet records) : Log.render threshold records = "" := by
  have hidden : records.filter (·.level.rank ≤ threshold) = [] := by
    apply List.filter_eq_nil_iff.mpr
    intro record member
    have above := Nat.lt_of_le_of_lt low (error_rank_lt (quiet record member))
    simpa using above
  rw [Log.render, hidden]
  rfl

section Records
variable {first second : List Log.Record}

private theorem quiet_nil : Quiet [] := by
  intro record member
  cases member

private theorem quiet_append (quiet : Quiet first) (later : Quiet second) : Quiet (first ++ second) := by
  intro record member
  rcases List.mem_append.mp member with inside | inside
  · exact quiet record inside
  · exact later record inside

private theorem quiet_loaded (table : SymbolTable) : Quiet [Log.loaded table] := by
  intro record member
  obtain rfl := List.mem_singleton.mp member
  simp [Log.loaded]

private theorem quiet_declined (table : SymbolTable) (spellings : List (Char × Kind)) :
    Quiet (Log.declined table spellings) := by
  intro record member
  obtain ⟨entry, _, rfl⟩ := List.mem_map.mp member
  simp [Log.declinedSpelling]

private theorem quiet_scanned (token : Token) : Quiet (Log.scanned token) := by
  intro record member
  unfold Log.scanned Log.invalidCharacter at member
  split at member
  · cases member
  · split at member
    · simp only [List.cons_append, List.nil_append, List.mem_cons, List.not_mem_nil, or_false] at member
      rcases member with rfl | rfl <;> simp
    · simp only [List.nil_append, List.mem_singleton] at member
      simp [member]

private theorem quiet_scannedAll (tokens : List Token) : Quiet (Log.scannedAll tokens) := by
  intro record member
  obtain ⟨token, _, inside⟩ := List.mem_flatMap.mp member
  exact quiet_scanned token record inside

end Records

section Logged
variable {α β : Type}

private theorem quiet_bind {first : Logged α} {second : α → Logged β} (quiet : Quiet first.records)
    (later : ∀ value, Quiet (second value).records) : Quiet (first >>= second).records := by
  obtain ⟨records, result⟩ := first
  cases result with
  | error failure => exact quiet
  | ok value => exact quiet_append quiet (later value)

private theorem quiet_pure (value : α) : Quiet (pure value : Logged α).records := quiet_nil

private theorem quiet_ofExcept (result : Except Failure α) : Quiet (Logged.ofExcept result).records := quiet_nil

private theorem quiet_note {level : Log.Level} (other : level ≠ .error) (message : String) :
    Quiet (note level message).records := by
  intro record member
  obtain rfl := List.mem_singleton.mp member
  exact other

end Logged

section Operations
variable (surroundings : Surroundings) (table : SymbolTable)

private theorem quiet_fileTable (path : String) : Quiet (fileTable surroundings path).records := by
  refine quiet_bind (quiet_note (by decide) _) fun _ => ?_
  refine quiet_bind (quiet_ofExcept _) fun _ => ?_
  refine quiet_bind (quiet_ofExcept _) fun table => ?_
  exact quiet_bind (quiet_loaded table) fun _ => quiet_pure table

private theorem quiet_offering (message : String) (spellings : List (Char × Kind)) :
    Quiet (offering message spellings table).records := by
  refine quiet_bind (quiet_note (by decide) _) fun _ => ?_
  exact quiet_bind (quiet_declined table spellings) fun _ => quiet_pure _

private theorem quiet_offered {wanted : Bool} {message : String} {spellings : List (Char × Kind)}
    {table : SymbolTable} {next : SymbolTable → Logged SymbolTable}
    (later : ∀ table, Quiet (next table).records) :
    Quiet (if wanted then offering message spellings table >>= next else pure table >>= next).records := by
  split
  · exact quiet_bind (quiet_offering table message spellings) later
  · exact quiet_bind (quiet_pure table) later

private theorem quiet_chosenTable (options : Options) : Quiet (chosenTable surroundings options).records := by
  have checked (table : SymbolTable) :
      Quiet (Logged.ofExcept (table.validate.mapError .tableUnsound) >>= fun _ => pure table).records :=
    quiet_bind (quiet_ofExcept _) fun _ => quiet_pure table
  unfold chosenTable
  cases options.symbols with
  | none => exact quiet_bind (quiet_pure _) fun _ => quiet_offered fun _ => quiet_offered checked
  | some path =>
    exact quiet_bind (quiet_fileTable surroundings path) fun _ => quiet_offered fun _ => quiet_offered checked

private theorem quiet_sourceTokens (path : String) : Quiet (sourceTokens surroundings table path).records := by
  refine quiet_bind ?_ fun source => ?_
  · exact quiet_bind (quiet_note (by decide) _) fun _ => quiet_ofExcept _
  · exact quiet_bind (quiet_scannedAll _) fun _ => quiet_pure _

private theorem quiet_checkTokens (path : String) : Quiet (checkTokens surroundings table path).records := by
  refine quiet_bind (quiet_sourceTokens surroundings table path) fun tokens => ?_
  split
  · exact quiet_pure _
  · exact quiet_pure _

private theorem quiet_runSession (listing : Listing) : Quiet (runSession surroundings table listing).records := by
  refine quiet_bind ?_ fun _ => ?_
  · intro record member
    obtain ⟨source, _, inside⟩ := List.mem_flatMap.mp member
    exact quiet_scannedAll _ record inside
  · split
    · exact quiet_pure _
    · exact quiet_pure _

/-- No request is carried out with a record of an error. -/
theorem quiet_perform (task : Task) (options : Options) :
    Quiet (perform surroundings task options).records := by
  refine quiet_bind (quiet_chosenTable surroundings options) fun table => ?_
  cases task with
  | tokens path => exact quiet_bind (quiet_sourceTokens surroundings table path) fun _ => quiet_pure _
  | check path => exact quiet_checkTokens surroundings table path
  | session => exact quiet_runSession surroundings table options.listing
  | nothing => exact quiet_pure _

end Operations

/-- Where only errors are logged, the outcome of a request is shown without any record. -/
theorem run_eq_of_low {surroundings : Surroundings} (low : surroundings.threshold ≤ Log.Level.error.rank)
    {task : Task} {options : Options} {outcome : Outcome}
    (performed : (perform surroundings task options).result = .ok outcome) :
    run surroundings task options = outcome := by
  rw [run, render_of_quiet low (quiet_perform surroundings task options), performed]
  simp

end CantoScan.Proofs.LogLevels
