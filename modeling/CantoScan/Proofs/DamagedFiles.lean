import CantoScan.Diagnostic
import CantoScan.Proofs.FileStrictness
import CantoScan.Proofs.TableRules

/-! Damage to a table file is always noticed. A file tells where it ends, so neither the beginning of one
nor one with more behind it is a file, and no rule of the table is looked at before all of it is read. -/

namespace CantoScan.Proofs.DamagedFiles
open Json Json.Reader JsonGrammar JsonReading JsonStrictness FileLayout FileStrictness TableRules

/-- A text that is refused before any rule of the table is looked at. -/
def Malformed (text : String) : Prop := ∃ fault, SymbolTable.load text = .error (.malformed fault)

/-- A beginning of the text is no file, nor is the text with more behind it than blanks. Blanks around it
make no difference. -/
structure Guarded (text : String) : Prop where
  cut : ∀ kept lost, text = kept ++ lost → lost ≠ "" → Malformed kept
  grown : ∀ added, ¬ Blanks added.toList → Malformed (text ++ added)
  padded : ∀ before behind, Blanks before.toList → Blanks behind.toList →
    SymbolTable.load (before ++ text ++ behind) = SymbolTable.load text

section Reading
variable {text : String} {file : TableFile}

private theorem malformed_iff_parse : Malformed text ↔ ∃ fault, TableFile.parse text = .error fault := by
  simp [Malformed, load_eq_error_iff]

private theorem not_malformed_iff : ¬ Malformed text ↔ ∃ file, TableFile.parse text = .ok file := by
  rw [malformed_iff_parse]
  cases TableFile.parse text <;> simp

private theorem load_congr {first second : String} (same : TableFile.parse first = TableFile.parse second) :
    SymbolTable.load first = SymbolTable.load second := by
  rw [SymbolTable.load, SymbolTable.load, same]

private theorem parse_blanks_append {before : String} (blanks : Blanks before.toList) (text : String) :
    TableFile.parse (before ++ text) = TableFile.parse text := by
  have same : TableFile.reader.run (before ++ text).toList = TableFile.reader.run text.toList := by
    rw [String.toList_append, TableFile.reader, record, run_bind, run_bind, run_peek, run_peek,
      dropBlanks_append blanks]
  rw [TableFile.parse, TableFile.parse, Reader.read, Reader.read, document, run_bind, run_bind, same]

/-- Whatever stands behind a file is looked at only once the file has been read. -/
theorem parse_append (read : TableFile.parse text = .ok file) (added : String) :
    TableFile.parse (text ++ added) =
      if Text.dropBlanks added.toList = [] then .ok file else .error .trailingCharacters := by
  have layout := parse_eq_ok_iff.mp read
  generalize whole : text.toList = chars at layout
  cases layout with
  | @layout before inner behind blanks form blanksToo =>
    -- The reader stops where the file ends, so it leaves what has been added as it is.
    have done : TableFile.reader.run (text ++ added).toList = .ok (file, behind ++ added.toList) := by
      rw [String.toList_append, whole, List.append_assoc, List.append_assoc]
      exact (delimits_file form).run before _ blanks
    rw [TableFile.parse, read_of_run done, dropBlanks_append blanksToo]

end Reading

section Damage
variable {text kept lost added before behind : String}

private theorem blanks_of_cut (decoded : ¬ Malformed (kept ++ lost)) (whole : ¬ Malformed kept) :
    Blanks lost.toList := by
  obtain ⟨file, read⟩ := not_malformed_iff.mp whole
  obtain ⟨_, readToo⟩ := not_malformed_iff.mp decoded
  rw [parse_append read] at readToo
  split at readToo
  next blanks => exact blanks_iff.mpr blanks
  next => cases readToo

private theorem malformed_of_grown (decoded : ¬ Malformed text) (visible : ¬ Blanks added.toList) :
    Malformed (text ++ added) := by
  obtain ⟨file, read⟩ := not_malformed_iff.mp decoded
  rw [malformed_iff_parse, parse_append read, if_neg (blanks_iff.not.mp visible)]
  exact ⟨_, rfl⟩

private theorem load_padded (decoded : ¬ Malformed text) (blanks : Blanks before.toList)
    (blanksToo : Blanks behind.toList) :
    SymbolTable.load (before ++ text ++ behind) = SymbolTable.load text := by
  obtain ⟨file, read⟩ := not_malformed_iff.mp decoded
  have readToo : TableFile.parse (before ++ text) = .ok file := (parse_blanks_append blanks text).trans read
  apply load_congr
  rw [parse_append readToo, if_pos (blanks_iff.mp blanksToo), read]

private theorem guarded_of_decoded (decoded : ¬ Malformed text)
    (ended : ∀ c ∈ text.toList.getLast?, Text.isBlank c = false) : Guarded text where
  cut := by
    rintro kept lost rfl filled
    by_contra whole
    have blanks := blanks_of_cut decoded whole
    obtain ⟨front, c, parts⟩ := List.eq_nil_or_concat lost.toList |>.resolve_left (by simpa using filled)
    have visible : Text.isBlank c = false := ended c (by simp [parts])
    rw [blanks c (by simp [parts])] at visible
    cases visible
  grown _ := malformed_of_grown decoded
  padded _ _ := load_padded decoded

private theorem diagnosed {fault : LoadFault} (failed : SymbolTable.load text = .error fault) :
    ((∃ message, fault.diagnostic = .malformedFile message) ↔ Malformed text) ∧
      ((∃ message, fault.diagnostic = .symbolTable message) ↔ ¬ Malformed text) := by
  cases fault <;> simp [Malformed, failed, LoadFault.diagnostic, TableFault.diagnostic]

/-- Every text is refused as a text, unless all of it is laid out as a file, and only then can a rule of the
table be broken; the diagnostic tells which it was. A file that does not end in blanks is guarded against
damage. -/
theorem load_damaged (text : String) :
    (Malformed text ↔ ¬ ∃ file : TableFile, Layout file.comment file.symbols text.toList) ∧
      (∀ fault, SymbolTable.load text = .error fault →
        ((∃ message, fault.diagnostic = .malformedFile message) ↔ Malformed text) ∧
          ((∃ message, fault.diagnostic = .symbolTable message) ↔ ¬ Malformed text)) ∧
      (∀ fault, SymbolTable.load text = .error (.rejected fault) → ∃ file : TableFile,
        Layout file.comment file.symbols text.toList ∧
          SymbolTable.ofEntries file.comment file.symbols = .error fault) ∧
      (¬ Malformed text → (∀ c ∈ text.toList.getLast?, Text.isBlank c = false) → Guarded text) := by
  refine ⟨?_, fun _ => diagnosed, ?_, guarded_of_decoded⟩
  · simp only [← parse_eq_ok_iff]
    rw [← not_malformed_iff, not_not]
  · intro fault rejected
    obtain ⟨_, _, other⟩ | ⟨file, first, read, failed, same⟩ := load_eq_error_iff.mp rejected
    · cases other
    · cases same
      exact ⟨file, parse_eq_ok_iff.mp read, failed⟩

end Damage

theorem load_damaged_rejected :
    let kept := "\x7b\"symbols\":[[\"1\",\"Comment\"]],\"x\":[\"\\\"]\x7d\",-0.5e"
    let text := kept ++ "+3]\x7d"
    let fault : LoadFault := .rejected (.scannedKind .comment "1")
    SymbolTable.load text = .error fault ∧ Malformed kept ∧ Malformed (text ++ "\n]") ∧
      SymbolTable.load ("\t" ++ text ++ "\r\n") = .error fault := by
  intro kept text fault
  have rejected : SymbolTable.load text = .error fault := by decide +kernel
  have decoded : ¬ Malformed text := by
    rintro ⟨first, refused⟩
    rw [rejected] at refused
    simp [fault] at refused
  have ended : ∀ c ∈ text.toList.getLast?, Text.isBlank c = false := by
    have last : text.toList.getLast? = some '}' := by simp [text]
    simp [last, Text.isBlank]
  obtain ⟨_, _, _, guarded⟩ := load_damaged text
  have guarded := guarded decoded ended
  refine ⟨rejected, guarded.cut kept _ rfl (by decide), guarded.grown "\n]" ?_, ?_⟩
  · simp [Blanks, Text.isBlank]
  · rw [guarded.padded "\t" "\r\n" (by simp [Blanks, Text.isBlank]) (by simp [Blanks, Text.isBlank])]
    exact rejected

end CantoScan.Proofs.DamagedFiles
