import CantoScan.Table.Insert

/-! Changes of a table that fail as a whole. Where checks that only read the table come first and the one
change comes last, a failure leaves the table as it was; binding a literal is a change of this kind. -/

namespace CantoScan.Proofs.TableUpdates
open SymbolTable Update

section Rules
variable {α β : Type}

/-- Leaves every table as it was, whatever comes of it. -/
def Reads (update : Update α) : Prop := ∀ table, (update.run table).2 = table

/-- Leaves a table as it was unless it succeeds. -/
def Atomic (update : Update α) : Prop :=
  ∀ table fault after, update.run table = (.error fault, after) → after = table

theorem Reads.atomic {update : Update α} (reads : Reads update) : Atomic update := by
  intro table fault after failed
  rw [← reads table, failed]

theorem Reads.bind {first : Update α} {next : α → Update β} (reads : Reads first)
    (atomic : ∀ value, Atomic (next value)) : Atomic (first >>= next) := by
  intro table fault after failed
  have same := reads table
  rw [run_bind] at failed
  split at failed
  next value left done =>
    rw [done] at same
    exact (atomic value left fault after failed).trans same
  next first left done =>
    rw [done] at same
    cases failed
    exact same

private theorem reads_get : Reads (get : Update SymbolTable) := fun _ => rfl

private theorem reads_throw (fault : TableFault) : Reads (throw fault : Update α) := fun _ => rfl

private theorem reads_refuse (condition : Bool) (fault : TableFault) : Reads (refuse condition fault) := by
  intro table
  cases condition <;> rfl

private theorem reads_forM_throw (found : Option α) (fault : α → TableFault) :
    Reads (found.forM fun value => throw (fault value)) := by
  intro table
  cases found <;> rfl

private theorem atomic_modify (change : SymbolTable → SymbolTable) : Atomic (modify change : Update Unit) := by
  intro table fault after failed
  cases failed

end Rules

section Literals
variable {table after : SymbolTable} {literal : String} {kind : Kind}

/-- No rule is checked behind the change of the table, so no failure comes behind it. -/
theorem atomic_register (literal : String) (kind : Kind) : Atomic (register literal kind) := by
  rw [register]
  -- Every step but the last reads only, in each of the three cases.
  apply (reads_refuse _ _).bind
  intro _
  apply (reads_forM_throw _ _).bind
  intro _
  split
  next c _ =>
    apply reads_get.bind
    intro current
    apply (reads_refuse _ _).bind
    exact fun _ => atomic_modify _
  next first second _ =>
    apply reads_get.bind
    intro current
    apply (reads_refuse _ _).bind
    intro _
    apply reads_get.bind
    intro currentToo
    apply (reads_refuse _ _).bind
    exact fun _ => atomic_modify _
  next => exact (reads_throw _).atomic

/-- A literal that is refused leaves no trace in the table. -/
theorem insert_unchanged {fault : TableFault} (failed : table.insert literal kind = (.error fault, after)) :
    after = table :=
  atomic_register literal kind table fault after failed

/-- A successful insertion has checked every rule and adds exactly one binding. -/
theorem insert_eq_ok (inserted : table.insert literal kind = (.ok (), after)) :
    kind.isScanned = false ∧ (∀ c ∈ literal.toList, isReserved c = false) ∧
      ((∃ c, literal.toList = [c] ∧ table.single c = none ∧ after = table.bindSingle c kind) ∨
        ∃ first second, literal.toList = [first, second] ∧ table.startsComment first second = false ∧
          table.double first second = none ∧ after = table.bindDouble first second kind) := by
  rw [SymbolTable.insert, register, run_refuse_bind, run_forM_throw_bind] at inserted
  split at inserted
  · cases inserted
  next bindable =>
    refine ⟨by simpa using bindable, ?_⟩
    split at inserted
    · cases inserted
    next plain =>
      refine ⟨by simpa using plain, ?_⟩
      split at inserted
      next c one =>
        rw [run_get_bind, run_refuse_bind] at inserted
        split at inserted
        · cases inserted
        next free =>
          cases inserted
          exact .inl ⟨c, one, by simpa using free, rfl⟩
      next first second two =>
        rw [run_get_bind, run_refuse_bind, run_get_bind, run_refuse_bind] at inserted
        split at inserted
        · cases inserted
        next apart =>
          split at inserted
          · cases inserted
          next free =>
            cases inserted
            exact .inr ⟨first, second, two, by simpa using apart, by simpa using free, rfl⟩
      · cases inserted

theorem insertAll_cons_eq_ok {entry : String × Kind} {entries : List (String × Kind)}
    (inserted : table.insertAll (entry :: entries) = .ok after) :
    ∃ bound, table.insert entry.1 entry.2 = (.ok (), bound) ∧ bound.insertAll entries = .ok after := by
  rw [insertAll_cons] at inserted
  cases first : finished (table.insert entry.1 entry.2) with
  | error fault =>
    rw [first] at inserted
    cases inserted
  | ok bound =>
    rw [first] at inserted
    exact ⟨bound, finished_eq_ok_iff.mp first, inserted⟩

end Literals

end CantoScan.Proofs.TableUpdates
