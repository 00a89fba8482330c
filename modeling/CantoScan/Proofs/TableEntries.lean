import CantoScan.Proofs.TableRules

/-! What a list of entries makes of a table. Entries that keep the rules together are all accepted,
each at the end of the list for its length, so the entries of a table make the same table again. -/

namespace CantoScan.Proofs.TableEntries
open TableUpdates TableRules SymbolTable

def singleOf? (entry : String × Kind) : Option (Char × Kind) :=
  match entry.1.toList with
  | [c] => some (c, entry.2)
  | _ => none

def doubleOf? (entry : String × Kind) : Option ((Char × Char) × Kind) :=
  match entry.1.toList with
  | [first, second] => some ((first, second), entry.2)
  | _ => none

theorem singleOf?_spelled (entry : String × Kind) (binding : Char × Kind)
    (bound : singleOf? entry = some binding) : entry = (String.ofList [binding.1], binding.2) := by
  unfold singleOf? at bound
  split at bound
  next c one =>
    cases bound
    rw [← one, String.ofList_toList]
  · cases bound

theorem doubleOf?_spelled (entry : String × Kind) (binding : (Char × Char) × Kind)
    (bound : doubleOf? entry = some binding) :
    entry = (String.ofList [binding.1.1, binding.1.2], binding.2) := by
  unfold doubleOf? at bound
  split at bound
  next first second two =>
    cases bound
    rw [← two, String.ofList_toList]
  · cases bound

/-- A table with further bindings behind its own, whether or not they may stand there. -/
def extend (table : SymbolTable) (entries : List (String × Kind)) : SymbolTable where
  singles := table.singles ++ entries.filterMap singleOf?
  doubles := table.doubles ++ entries.filterMap doubleOf?
  comment := table.comment

inductive Sized (entry : String × Kind) : Prop where
  | single (c : Char) : entry.1.toList = [c] → Sized entry
  | double (first second : Char) : entry.1.toList = [first, second] → Sized entry

theorem sized_iff {entry : String × Kind} : Sized entry ↔ entry.1.length = 1 ∨ entry.1.length = 2 := by
  rw [← String.length_toList, List.length_eq_one_iff, List.length_eq_two]
  constructor
  · rintro (⟨c, one⟩ | ⟨first, second, two⟩)
    · exact .inl ⟨c, one⟩
    · exact .inr ⟨first, second, two⟩
  · rintro (⟨c, one⟩ | ⟨first, second, two⟩)
    · exact .single c one
    · exact .double first second two

section Step
variable {table : SymbolTable} {entry : String × Kind} {entries : List (String × Kind)}

@[simp] theorem extend_nil (table : SymbolTable) : extend table [] = table := by simp [extend]

theorem extend_cons_single {c : Char} (one : entry.1.toList = [c]) :
    extend table (entry :: entries) = extend (table.bindSingle c entry.2) entries := by
  simp [extend, singleOf?, doubleOf?, one, SymbolTable.bindSingle]

theorem extend_cons_double {first second : Char} (two : entry.1.toList = [first, second]) :
    extend table (entry :: entries) = extend (table.bindDouble first second entry.2) entries := by
  simp [extend, singleOf?, doubleOf?, two, SymbolTable.bindDouble]

private theorem mem_entries_extend (member : entry ∈ table.entries) : entry ∈ (extend table entries).entries := by
  simp only [SymbolTable.entries, extend, List.map_append, List.mem_append] at member ⊢
  rcases member with single | double
  · exact .inl (.inl single)
  · exact .inr (.inl double)

private theorem insert_of_single {literal : String} {kind : Kind} {c : Char} (one : literal.toList = [c])
    (free : table.single c = none) (plain : isReserved c = false) (bindable : kind.isScanned = false) :
    table.insert literal kind = (.ok (), table.bindSingle c kind) := by
  simp [SymbolTable.insert, register, one, free, plain, bindable]

private theorem insert_of_double {literal : String} {kind : Kind} {first second : Char}
    (two : literal.toList = [first, second]) (free : table.double first second = none)
    (apart : table.startsComment first second = false)
    (plain : isReserved first = false ∧ isReserved second = false) (bindable : kind.isScanned = false) :
    table.insert literal kind = (.ok (), table.bindDouble first second kind) := by
  simp [SymbolTable.insert, register, two, free, apart, plain, bindable]

private theorem lookup_eq_none_of_nodup {α : Type} [BEq α] [LawfulBEq α] {key : α} {kind : Kind}
    {before after : List (α × Kind)} (distinct : ((before ++ [(key, kind)] ++ after).map Prod.fst).Nodup) :
    before.lookup key = none := by
  apply List.lookup_eq_none_iff.mpr
  intro binding member
  rw [List.map_append, List.nodup_append, List.map_append, List.nodup_append] at distinct
  have other : binding.1 ≠ key :=
    distinct.1.2.2 binding.1 (List.mem_map_of_mem member) key (by simp)
  simpa using other.symm

private theorem insert_single_of_sound {c : Char} (one : entry.1.toList = [c])
    (sound : Sound (extend (table.bindSingle c entry.2) entries)) :
    table.insert entry.1 entry.2 = (.ok (), table.bindSingle c entry.2) := by
  have bound : (String.ofList [c], entry.2) ∈ (extend (table.bindSingle c entry.2) entries).entries :=
    mem_entries_extend (mem_entries_bindSingle.mpr (.inr rfl))
  exact insert_of_single one (lookup_eq_none_of_nodup sound.singles)
    (sound.unreserved _ bound c (by simp)) (sound.bindable (String.ofList [c], entry.2) bound)

private theorem insert_double_of_sound {first second : Char} (two : entry.1.toList = [first, second])
    (sound : Sound (extend (table.bindDouble first second entry.2) entries)) :
    table.insert entry.1 entry.2 = (.ok (), table.bindDouble first second entry.2) := by
  have bound : (String.ofList [first, second], entry.2) ∈
      (extend (table.bindDouble first second entry.2) entries).entries :=
    mem_entries_extend (mem_entries_bindDouble.mpr (.inr rfl))
  have apart : table.startsComment first second = false := by
    have outside := sound.apart
    simp only [extend, SymbolTable.bindDouble, List.map_append, List.mem_append, List.map_cons] at outside
    simpa [startsComment] using fun same => outside (.inl (.inr (by simp [same])))
  exact insert_of_double two (lookup_eq_none_of_nodup sound.doubles) apart
    ⟨sound.unreserved _ bound first (by simp), sound.unreserved _ bound second (by simp)⟩
    (sound.bindable (String.ofList [first, second], entry.2) bound)

end Step

/-- No entry is refused if the bindings keep the rules in the end. -/
theorem insertAll_of_sound {table : SymbolTable} {entries : List (String × Kind)}
    (sized : ∀ entry ∈ entries, Sized entry) (sound : Sound (extend table entries)) :
    table.insertAll entries = .ok (extend table entries) := by
  induction entries generalizing table with
  | nil => simp [SymbolTable.insertAll, pure, Except.pure]
  | cons entry entries ih =>
    obtain ⟨first, rest⟩ := List.forall_mem_cons.mp sized
    rw [insertAll_cons]
    cases first with
    | single c one =>
      rw [extend_cons_single one] at sound ⊢
      rw [insert_single_of_sound one sound]
      exact ih rest sound
    | double first second two =>
      rw [extend_cons_double two] at sound ⊢
      rw [insert_double_of_sound two sound]
      exact ih rest sound

theorem insert_eq_extend {table after : SymbolTable} {entry : String × Kind}
    (inserted : table.insert entry.1 entry.2 = (.ok (), after)) :
    Sized entry ∧ ∀ entries, extend table (entry :: entries) = extend after entries := by
  obtain ⟨_, _, binding⟩ := insert_eq_ok inserted
  rcases binding with ⟨c, one, _, rfl⟩ | ⟨first, second, two, _, _, rfl⟩
  · exact ⟨.single c one, fun _ => extend_cons_single one⟩
  · exact ⟨.double first second two, fun _ => extend_cons_double two⟩

theorem insertAll_eq_extend {table after : SymbolTable} {entries : List (String × Kind)}
    (inserted : table.insertAll entries = .ok after) :
    (∀ entry ∈ entries, Sized entry) ∧ after = extend table entries := by
  induction entries generalizing table with
  | nil =>
    cases inserted
    exact ⟨by simp, (extend_nil _).symm⟩
  | cons entry entries ih =>
    obtain ⟨bound, first, others⟩ := insertAll_cons_eq_ok inserted
    obtain ⟨sized, behind⟩ := insert_eq_extend first
    obtain ⟨rest, whole⟩ := ih others
    exact ⟨List.forall_mem_cons.mpr ⟨sized, rest⟩, whole.trans (behind entries).symm⟩

/-- Entries are accepted one by one exactly if their bindings keep the rules together. -/
theorem insertAll_eq_ok_iff {table after : SymbolTable} (sound : Sound table)
    {entries : List (String × Kind)} :
    table.insertAll entries = .ok after ↔
      (∀ entry ∈ entries, Sized entry) ∧ Sound after ∧ after = extend table entries := by
  constructor
  · intro inserted
    obtain ⟨sized, whole⟩ := insertAll_eq_extend inserted
    exact ⟨sized, sound.insertAll inserted, whole⟩
  · rintro ⟨sized, kept, rfl⟩
    exact insertAll_of_sound sized kept

theorem sized_entries (table : SymbolTable) : ∀ entry ∈ table.entries, Sized entry := by
  intro entry member
  rcases List.mem_append.mp member with single | double
  · obtain ⟨binding, _, rfl⟩ := List.mem_map.mp single
    exact .single binding.1 String.toList_ofList
  · obtain ⟨binding, _, rfl⟩ := List.mem_map.mp double
    exact .double binding.1.1 binding.1.2 String.toList_ofList

theorem extend_entries (table : SymbolTable) : extend ⟨[], [], table.comment⟩ table.entries = table := by
  simp [extend, SymbolTable.entries, List.filterMap_map, Function.comp_def, singleOf?, doubleOf?]

theorem empty_commentMarker {table : SymbolTable} (sound : Sound table) :
    SymbolTable.empty table.commentMarker = .ok ⟨[], [], table.comment⟩ := by
  simp [SymbolTable.empty, commentMarker, sound.marker]

/-- Checking a table entry by entry makes it anew, in the same order. -/
theorem rebuild_of_sound {table : SymbolTable} (sound : Sound table) : table.rebuild = .ok table := by
  have whole := insertAll_of_sound (sized_entries table) ((extend_entries table).symm ▸ sound)
  rw [extend_entries] at whole
  rw [rebuild, ofEntries_of_empty (empty_commentMarker sound)]
  exact whole

theorem validate_of_sound {table : SymbolTable} (sound : Sound table) : table.validate = .ok () := by
  rw [validate, rebuild_of_sound sound]
  rfl

end CantoScan.Proofs.TableEntries
