import CantoScan.Proofs.TableEntries

/-! What the check of a table decides. The check makes the table anew from its own entries, so it passes
exactly the tables that keep the rules. Literals of different lengths never stand in each other's way, so
the entries make the table in every order that leaves each length in its own. -/

namespace CantoScan.Proofs.Validation
open TableRules TableEntries SymbolTable

/-- Two lists taken together, each in its own order. -/
inductive Interleaved {α : Type} : List α → List α → List α → Prop where
  | nil : Interleaved [] [] []
  | left {first second merged : List α} (item : α) :
      Interleaved first second merged → Interleaved (item :: first) second (item :: merged)
  | right {first second merged : List α} (item : α) :
      Interleaved first second merged → Interleaved first (item :: second) (item :: merged)

def spellSingle (binding : Char × Kind) : String × Kind := (String.ofList [binding.1], binding.2)

def spellDouble (binding : (Char × Char) × Kind) : String × Kind :=
  (String.ofList [binding.1.1, binding.1.2], binding.2)

section Merge
variable {singles : List (Char × Kind)} {doubles : List ((Char × Char) × Kind)}
  {entries : List (String × Kind)}

private theorem bindings_of_interleaved
    (merge : Interleaved (singles.map spellSingle) (doubles.map spellDouble) entries) :
    (∀ entry ∈ entries, Sized entry) ∧
      entries.filterMap singleOf? = singles ∧ entries.filterMap doubleOf? = doubles := by
  generalize first : singles.map spellSingle = left at merge
  generalize second : doubles.map spellDouble = right at merge
  induction merge generalizing singles doubles with
  | nil =>
    rw [List.map_eq_nil_iff.mp first, List.map_eq_nil_iff.mp second]
    exact ⟨by simp, rfl, rfl⟩
  | left item _ ih =>
    obtain ⟨binding, singles, rfl, rfl, rest⟩ := List.map_eq_cons_iff.mp first
    obtain ⟨sized, taken, others⟩ := ih rest second
    have size : Sized (spellSingle binding) := .single binding.1 String.toList_ofList
    refine ⟨List.forall_mem_cons.mpr ⟨size, sized⟩, ?_, ?_⟩
    · simp [spellSingle, singleOf?, taken]
    · simp [spellSingle, doubleOf?, others]
  | right item _ ih =>
    obtain ⟨binding, doubles, rfl, rfl, rest⟩ := List.map_eq_cons_iff.mp second
    obtain ⟨sized, others, taken⟩ := ih first rest
    have size : Sized (spellDouble binding) := .double binding.1.1 binding.1.2 String.toList_ofList
    refine ⟨List.forall_mem_cons.mpr ⟨size, sized⟩, ?_, ?_⟩
    · simp [spellDouble, singleOf?, others]
    · simp [spellDouble, doubleOf?, taken]

private theorem interleaved_bindings (sized : ∀ entry ∈ entries, Sized entry) :
    Interleaved ((entries.filterMap singleOf?).map spellSingle)
      ((entries.filterMap doubleOf?).map spellDouble) entries := by
  induction entries with
  | nil => exact .nil
  | cons entry entries ih =>
    obtain ⟨first, rest⟩ := List.forall_mem_cons.mp sized
    cases first with
    | single c one =>
      have bound : singleOf? entry = some (c, entry.2) := by simp [singleOf?, one]
      have none : doubleOf? entry = none := by simp [doubleOf?, one]
      have spelled : spellSingle (c, entry.2) = entry := (singleOf?_spelled entry _ bound).symm
      rw [List.filterMap_cons_some bound, List.filterMap_cons_none none, List.map_cons, spelled]
      exact .left entry (ih rest)
    | double c d two =>
      have none : singleOf? entry = none := by simp [singleOf?, two]
      have bound : doubleOf? entry = some ((c, d), entry.2) := by simp [doubleOf?, two]
      have spelled : spellDouble ((c, d), entry.2) = entry := (doubleOf?_spelled entry _ bound).symm
      rw [List.filterMap_cons_none none, List.filterMap_cons_some bound, List.map_cons, spelled]
      exact .right entry (ih rest)

private theorem interleaved_iff :
    Interleaved (singles.map spellSingle) (doubles.map spellDouble) entries ↔
      (∀ entry ∈ entries, Sized entry) ∧
        entries.filterMap singleOf? = singles ∧ entries.filterMap doubleOf? = doubles := by
  constructor
  · exact bindings_of_interleaved
  · rintro ⟨sized, rfl, rfl⟩
    exact interleaved_bindings sized

end Merge

section Check
variable {table after : SymbolTable}

private theorem extend_empty_eq_iff {entries : List (String × Kind)} :
    table = extend ⟨[], [], table.comment⟩ entries ↔
      entries.filterMap singleOf? = table.singles ∧ entries.filterMap doubleOf? = table.doubles := by
  obtain ⟨singles, doubles, comment⟩ := table
  simp [extend, eq_comm]

private theorem empty_of_commentMarker {blank : SymbolTable}
    (made : SymbolTable.empty table.commentMarker = .ok blank) : blank = ⟨[], [], table.comment⟩ := by
  obtain ⟨first, second, two, _, rfl⟩ := empty_eq_ok made
  rw [commentMarker, String.toList_ofList] at two
  obtain ⟨rfl, rfl⟩ : table.comment.1 = first ∧ table.comment.2 = second := by simpa using two
  rfl

private theorem rebuild_eq_ok (rebuilt : table.rebuild = .ok after) : after = table ∧ Sound table := by
  have sound : Sound after := .ofEntries rebuilt
  obtain ⟨blank, made, inserted⟩ := ofEntries_eq_ok_iff.mp rebuilt
  obtain ⟨_, whole⟩ := insertAll_eq_extend inserted
  rw [empty_of_commentMarker made, extend_entries] at whole
  exact ⟨whole, whole ▸ sound⟩

private theorem validate_eq_ok_iff : table.validate = .ok () ↔ Sound table := by
  constructor
  · intro valid
    cases rebuilt : table.rebuild with
    | error fault =>
      rw [validate, rebuilt] at valid
      cases valid
    | ok after => exact (rebuild_eq_ok rebuilt).2
  · exact validate_of_sound

instance (table : SymbolTable) : Decidable (Sound table) :=
  decidable_of_iff (table.validate = .ok ()) validate_eq_ok_iff

/-- A table that keeps the rules is made by its entries in just the orders that leave the literals of
each length in theirs. -/
theorem ofEntries_eq_ok_iff_interleaved (sound : Sound table) {entries : List (String × Kind)} :
    ofEntries table.commentMarker entries = .ok table ↔
      Interleaved (table.singles.map spellSingle) (table.doubles.map spellDouble) entries := by
  have blank : Sound ⟨[], [], table.comment⟩ := .empty (empty_commentMarker sound)
  rw [ofEntries_of_empty (empty_commentMarker sound), insertAll_eq_ok_iff blank, extend_empty_eq_iff,
    interleaved_iff]
  simp only [sound, true_and]

end Check

/-- The check passes a table, whatever its fields hold, exactly if it keeps the rules. Then it has made
the same table anew, and so would the entries in any order that keeps each of the two lists in its own. -/
theorem validate_decides (table : SymbolTable) :
    (table.validate = .ok () ↔ Sound table) ∧
      (table.validate = .ok () → table.rebuild = .ok table ∧ ∀ entries,
        ofEntries table.commentMarker entries = .ok table ↔
          Interleaved (table.singles.map spellSingle) (table.doubles.map spellDouble) entries) := by
  refine ⟨validate_eq_ok_iff, ?_⟩
  intro valid
  have sound := validate_eq_ok_iff.mp valid
  exact ⟨rebuild_of_sound sound, fun _ => ofEntries_eq_ok_iff_interleaved sound⟩

/-- Two literals that begin alike are no fault, nor is a literal that begins like the marker. -/
example : Sound ⟨[('大', .add), ('/', .divide)], [(('大', '過'), .minus)], ('/', '/')⟩ := by
  decide +kernel

example : ¬ Sound ⟨[('大', .add), ('大', .add)], [], ('/', '/')⟩ := by decide +kernel

end CantoScan.Proofs.Validation
