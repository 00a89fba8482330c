import CantoScan.Proofs.TableEntries

/-! The spelling that a table gives for a kind. Literals are kept by their length, so the literal that was
registered first is given only as long as no shorter one has been registered for the same kind. -/

namespace CantoScan.Proofs.Spellings
open TableUpdates TableRules TableEntries SymbolTable

def attemptAll (table : SymbolTable) (attempts : List (String × Kind)) : SymbolTable :=
  attempts.foldl (fun table entry => attempt table entry.1 entry.2) table

/-- The attempts that succeed when they are made one after the other. -/
def accepted (table : SymbolTable) : List (String × Kind) → List (String × Kind)
  | [] => []
  | entry :: attempts =>
    match table.insert entry.1 entry.2 with
    | (.ok (), after) => entry :: accepted after attempts
    | (.error _, after) => accepted after attempts

/-- The literal that is registered first for a kind. -/
def registered? (entries : List (String × Kind)) (kind : Kind) : Option String :=
  (entries.find? (·.2 = kind)).map Prod.fst

def isShort (literal : String) : Bool := literal.toList.length = 1

private theorem attemptAll_eq_extend (table : SymbolTable) (attempts : List (String × Kind)) :
    (∀ entry ∈ accepted table attempts, Sized entry) ∧
      attemptAll table attempts = extend table (accepted table attempts) := by
  induction attempts generalizing table with
  | nil => exact ⟨by simp [accepted], (extend_nil table).symm⟩
  | cons entry attempts ih =>
    rw [attemptAll, List.foldl_cons, attempt, accepted]
    rcases changed : table.insert entry.1 entry.2 with ⟨_ | _, after⟩
    · obtain rfl := insert_unchanged changed
      exact ih after
    · obtain ⟨sized, behind⟩ := insert_eq_extend changed
      obtain ⟨rest, whole⟩ := ih after
      exact ⟨List.forall_mem_cons.mpr ⟨sized, rest⟩, whole.trans (behind _).symm⟩

private theorem accepted_of_insertAll {table after : SymbolTable} {entries : List (String × Kind)}
    (inserted : table.insertAll entries = .ok after) :
    accepted table entries = entries ∧ attemptAll table entries = after := by
  induction entries generalizing table with
  | nil =>
    cases inserted
    exact ⟨rfl, rfl⟩
  | cons entry entries ih =>
    obtain ⟨bound, first, others⟩ := insertAll_cons_eq_ok inserted
    obtain ⟨all, whole⟩ := ih others
    rw [attemptAll, List.foldl_cons, attempt, accepted, first]
    exact ⟨congrArg _ all, whole⟩

section Registered
variable {entries : List (String × Kind)} {kind : Kind} {literal : String}

private theorem registered?_eq_none_iff :
    registered? entries kind = none ↔ ∀ entry ∈ entries, entry.2 ≠ kind := by
  simp [registered?]

private theorem registered?_cons (entry : String × Kind) :
    registered? (entry :: entries) kind =
      if entry.2 = kind then some entry.1 else registered? entries kind := by
  rw [registered?, List.find?_cons]
  split <;> simp_all [registered?]

private theorem registered?_filter {part : String × Kind → Bool}
    (kept : ∀ entry ∈ entries, entry.2 = kind → part entry = true) :
    registered? (entries.filter part) kind = registered? entries kind := by
  induction entries with
  | nil => rfl
  | cons entry entries ih =>
    obtain ⟨first, rest⟩ := List.forall_mem_cons.mp kept
    by_cases inside : part entry = true
    · rw [List.filter_cons_of_pos inside, registered?_cons, registered?_cons, ih rest]
    · have other : entry.2 ≠ kind := fun same => inside (first same)
      rw [List.filter_cons_of_neg inside, registered?_cons, if_neg other, ih rest]

private theorem registered?_filter_of_first {part : String → Bool} (first : registered? entries kind = some literal)
    (inside : part literal = true) :
    registered? (entries.filter fun entry => part entry.1) kind = some literal := by
  induction entries with
  | nil => cases first
  | cons entry entries ih =>
    rw [registered?_cons] at first
    by_cases same : entry.2 = kind
    · rw [if_pos same] at first
      obtain rfl := Option.some.inj first
      rw [List.filter_cons, if_pos inside, registered?_cons, if_pos same]
    · rw [if_neg same] at first
      rw [List.filter_cons]
      split
      · rw [registered?_cons, if_neg same, ih first]
      · exact ih first

private theorem find?_filterMap_spelled {α : Type} {binding? : String × Kind → Option (α × Kind)}
    {spell : α × Kind → String}
    (spelled : ∀ entry binding, binding? entry = some binding → entry = (spell binding, binding.2)) :
    ((entries.filterMap binding?).find? (·.2 = kind)).map spell =
      registered? (entries.filter fun entry => (binding? entry).isSome) kind := by
  induction entries with
  | nil => rfl
  | cons entry entries ih =>
    cases bound : binding? entry with
    | none => rw [List.filterMap_cons_none bound, List.filter_cons_of_neg (by simp [bound]), ih]
    | some binding =>
      rw [List.filterMap_cons_some bound, List.filter_cons_of_pos (by simp [bound]), registered?_cons,
        List.find?_cons]
      obtain rfl := spelled entry binding bound
      by_cases same : binding.2 = kind
      · simp [same]
      · simp only [same, decide_false, if_false]
        exact ih

private theorem isSome_singleOf? (entry : String × Kind) : (singleOf? entry).isSome = isShort entry.1 := by
  unfold singleOf? isShort
  split
  next c one => simp [one]
  next other =>
    have long : entry.1.toList.length ≠ 1 := by
      intro one
      obtain ⟨c, single⟩ := List.length_eq_one_iff.mp one
      exact other c single
    simp [long]

private theorem find?_singles :
    ((entries.filterMap singleOf?).find? (·.2 = kind)).map (fun binding => String.ofList [binding.1]) =
      registered? (entries.filter fun entry => isShort entry.1) kind := by
  rw [find?_filterMap_spelled singleOf?_spelled, funext isSome_singleOf?]

/-- Literals of one character come before the others, whatever the order of the entries. -/
theorem literalOf?_extend {table : SymbolTable} (blank : table.singles = [] ∧ table.doubles = [])
    (sized : ∀ entry ∈ entries, Sized entry) :
    (extend table entries).literalOf? kind =
      (registered? (entries.filter fun entry => isShort entry.1) kind).or (registered? entries kind) := by
  rw [literalOf?, extend, blank.1, blank.2]
  cases found : registered? (entries.filter fun entry => isShort entry.1) kind with
  | none =>
    have none : (entries.filterMap singleOf?).find? (·.2 = kind) = none :=
      Option.map_eq_none_iff.mp (find?_singles.trans found)
    have long : ∀ entry ∈ entries, entry.2 = kind → (doubleOf? entry).isSome = true := by
      intro entry member same
      cases sized entry member with
      | single c one =>
        have short : entry ∈ entries.filter fun entry => isShort entry.1 :=
          List.mem_filter.mpr ⟨member, by simp [isShort, one]⟩
        exact absurd same (registered?_eq_none_iff.mp found entry short)
      | double first second two => simp [doubleOf?, two]
    simp only [List.nil_append, none, Option.none_or]
    rw [find?_filterMap_spelled doubleOf?_spelled, registered?_filter long]
  | some literal =>
    obtain ⟨binding, first, spelled⟩ := Option.map_eq_some_iff.mp (find?_singles.trans found)
    simp only [List.nil_append, first, spelled, Option.some_or]

private theorem preferred_eq_iff {part : String → Bool} :
    (registered? (entries.filter fun entry => part entry.1) kind).or (registered? entries kind) =
        registered? entries kind ↔
      ∀ literal, registered? entries kind = some literal →
        part literal = true ∨ ∀ entry ∈ entries, entry.2 = kind → part entry.1 = false := by
  cases preferred : registered? (entries.filter fun entry => part entry.1) kind with
  | none =>
    have absent := registered?_eq_none_iff.mp preferred
    rw [Option.none_or, eq_self, true_iff]
    intro literal _
    right
    intro entry member same
    by_contra inside
    exact absent entry (List.mem_filter.mpr ⟨member, by simpa using inside⟩) same
  | some other =>
    rw [Option.some_or]
    obtain ⟨entry, found, rfl⟩ := Option.map_eq_some_iff.mp preferred
    have same : entry.2 = kind := by simpa using List.find?_some found
    obtain ⟨member, inside⟩ := List.mem_filter.mp (List.mem_of_find?_eq_some found)
    constructor
    · intro first literal whole
      rw [whole] at first
      obtain rfl := Option.some.inj first
      exact .inl inside
    · intro condition
      cases first : registered? entries kind with
      | none => exact absurd same (registered?_eq_none_iff.mp first entry member)
      | some literal =>
        rcases condition literal first with within | outside
        · rw [← preferred, registered?_filter_of_first first within]
        · rw [outside entry member same] at inside
          cases inside

end Registered

private theorem bindings_of_empty {marker : String} {table : SymbolTable}
    (made : SymbolTable.empty marker = .ok table) : table.singles = [] ∧ table.doubles = [] := by
  obtain ⟨first, second, _, _, rfl⟩ := empty_eq_ok made
  exact ⟨rfl, rfl⟩

/-- Which spelling a table gives for a kind, whatever was attempted on an empty one: the first of one
character that was accepted, or else the first of all. This is the first of all exactly if that has one
character or no spelling of one character was accepted. Entries that make a table at once are all
accepted, and make it as they would one by one. -/
theorem literalOf?_attemptAll {marker : String} {table : SymbolTable}
    (made : SymbolTable.empty marker = .ok table) (attempts : List (String × Kind)) (kind : Kind) :
    let entries := accepted table attempts
    (attemptAll table attempts).literalOf? kind =
        (registered? (entries.filter fun entry => isShort entry.1) kind).or (registered? entries kind) ∧
      ((attemptAll table attempts).literalOf? kind = registered? entries kind ↔
        ∀ literal, registered? entries kind = some literal →
          isShort literal = true ∨ ∀ entry ∈ entries, entry.2 = kind → isShort entry.1 = false) ∧
      ∀ loaded, ofEntries marker attempts = .ok loaded →
        entries = attempts ∧ attemptAll table attempts = loaded := by
  intro entries
  obtain ⟨sized, whole⟩ := attemptAll_eq_extend table attempts
  have given : (attemptAll table attempts).literalOf? kind =
      (registered? (entries.filter fun entry => isShort entry.1) kind).or (registered? entries kind) := by
    rw [whole]
    exact literalOf?_extend (bindings_of_empty made) sized
  refine ⟨given, ?_, ?_⟩
  · rw [given]
    exact preferred_eq_iff
  · intro loaded loads
    rw [ofEntries, made] at loads
    exact accepted_of_insertAll loads

theorem literalOf?_attemptAll_shortFirst :
    let table : SymbolTable := ⟨[], [], ('/', '/')⟩
    let attempts : List (String × Kind) :=
      [("//", .add), ("大", .greaterThan), ("大", .add), ("大過", .greaterThan)]
    SymbolTable.empty "//" = .ok table ∧
      accepted table attempts = [("大", .greaterThan), ("大過", .greaterThan)] ∧
      (attemptAll table attempts).literalOf? .greaterThan =
        registered? (accepted table attempts) .greaterThan := by
  intro table attempts
  have made : SymbolTable.empty "//" = .ok table := by decide
  have kept : accepted table attempts = [("大", .greaterThan), ("大過", .greaterThan)] := by decide +kernel
  refine ⟨made, kept, ?_⟩
  apply (literalOf?_attemptAll made attempts .greaterThan).2.1.mpr
  intro literal first
  left
  rw [kept] at first
  obtain rfl := Option.some.inj first
  decide

/-- A literal of two characters is registered first and is not the spelling, since a shorter one comes
after it. -/
theorem literalOf?_attemptAll_longFirst :
    let table : SymbolTable := ⟨[], [], ('/', '/')⟩
    let attempts : List (String × Kind) := [("大過", .greaterThan), ("大", .greaterThan)]
    SymbolTable.empty "//" = .ok table ∧ accepted table attempts = attempts ∧
      registered? (accepted table attempts) .greaterThan = some "大過" ∧
      (attemptAll table attempts).literalOf? .greaterThan = some "大" := by
  decide +kernel

end CantoScan.Proofs.Spellings
