import CantoScan.Proofs.TableRules
import CantoScan.Scan.Lexeme
import Mathlib.Data.List.TakeWhile

/-! How far a lexeme reaches. It is read from its own characters and the one behind them, so the rest of
the source may be replaced by one that begins with the same character. It may also be replaced by a
blank or by nothing, for no literal contains a blank; only a comment would go on over one. -/

namespace CantoScan.Proofs.LexemeReach
open TableRules

/-- The ways in which a lexeme is read, each with what must hold before it. -/
inductive Reading (table : SymbolTable) (c : Char) (rest : List Char) : Lexeme → Prop where
  | comment :
      table.opensComment c rest = true → Reading table c rest (.run .comment (· ≠ '\n') c rest)
  | double {kind : Kind} :
      table.opensComment c rest = false → table.opensDouble c rest = some kind →
      Reading table c rest ⟨kind, c :: rest.take 1, rest.drop 1⟩
  | single {kind : Kind} :
      table.opensComment c rest = false → table.opensDouble c rest = none →
      table.single c = some kind → Reading table c rest ⟨kind, [c], rest⟩
  | number :
      table.opensComment c rest = false → table.opensDouble c rest = none → table.single c = none →
      c.isDigit = true → Reading table c rest (.run .number Char.isDigit c rest)
  | identifier :
      table.opensComment c rest = false → table.opensDouble c rest = none → table.single c = none →
      c.isDigit = false → isWordCharacter c = true →
      Reading table c rest (.run .identifier isWordCharacter c rest)
  | invalid :
      table.opensComment c rest = false → table.opensDouble c rest = none → table.single c = none →
      c.isDigit = false → isWordCharacter c = false → Reading table c rest ⟨.invalid, [c], rest⟩

theorem Reading.eq {table : SymbolTable} {c : Char} {rest : List Char} {lexeme : Lexeme}
    (reading : Reading table c rest lexeme) : table.lexeme c rest = lexeme := by
  unfold SymbolTable.lexeme
  cases reading <;> simp [*]

theorem reading_lexeme (table : SymbolTable) (c : Char) (rest : List Char) :
    Reading table c rest (table.lexeme c rest) := by
  unfold SymbolTable.lexeme
  split
  next opens => exact .comment opens
  next plain =>
    simp only [Bool.not_eq_true] at plain
    split
    next kind bound => exact .double plain bound
    next unbound =>
      split
      next kind bound => exact .single plain unbound bound
      next free =>
        split
        next digit => exact .number plain unbound free digit
        next other =>
          simp only [Bool.not_eq_true] at other
          split
          next letter => exact .identifier plain unbound free other letter
          next sign => exact .invalid plain unbound free other (by simpa using sign)

def StartsBlank (after : List Char) : Prop := ∀ next, after.head? = some next → Text.isBlank next = true

/-- What may stand behind a lexeme in place of what stood there. -/
inductive Follows (lexeme : Lexeme) (after : List Char) : Prop where
  | same : after.head? = lexeme.rest.head? → Follows lexeme after
  | blank :
      StartsBlank after → (lexeme.kind = .comment → ∀ next, after.head? = some next → next = '\n') →
      Follows lexeme after

/-- More text may come behind a lexeme and what stood there, if it begins with a blank that ends comments
too. -/
theorem follows_append (lexeme : Lexeme) {next : Char} (blank : Text.isBlank next = true)
    (line : lexeme.kind = .comment → next = '\n') (behind : List Char) :
    Follows lexeme (lexeme.rest ++ next :: behind) := by
  cases left : lexeme.rest with
  | nil =>
    refine .blank ?_ ?_
    · rintro _ ⟨⟩
      exact blank
    · rintro comment _ ⟨⟩
      exact line comment
  | cons c rest => exact .same (by rw [left]; rfl)

private theorem isBlank_class {c : Char} (blank : Text.isBlank c = true) :
    Unicode.isWhiteSpace c = true ∧ c.isDigit = false ∧ isWordCharacter c = false := by
  rcases Text.isBlank_iff.mp blank with rfl | rfl | rfl | rfl <;> decide

private theorem isReserved_of_isBlank {c : Char} (blank : Text.isBlank c = true) :
    SymbolTable.isReserved c = true := by
  simp [SymbolTable.isReserved, (isBlank_class blank).1]

theorem isBlank_of_unreserved {c : Char} (plain : SymbolTable.isReserved c = false) :
    Text.isBlank c = false := by
  by_contra hidden
  rw [isReserved_of_isBlank (by simpa using hidden)] at plain
  cases plain

section Front
variable {table : SymbolTable} {c : Char} {first second after : List Char}

theorem opensComment_congr (same : first.head? = second.head?) :
    table.opensComment c first = table.opensComment c second := by
  rw [SymbolTable.opensComment, SymbolTable.opensComment, same]

private theorem opensDouble_congr (same : first.head? = second.head?) :
    table.opensDouble c first = table.opensDouble c second := by
  rw [SymbolTable.opensDouble, SymbolTable.opensDouble, same]

theorem opensComment_eq_true (opens : table.opensComment c after = true) :
    ∃ d rest, after = d :: rest ∧ table.comment = (c, d) := by
  cases after with
  | nil => cases opens
  | cons d rest =>
    exact ⟨d, rest, rfl, by simpa [SymbolTable.opensComment, SymbolTable.startsComment] using opens⟩

theorem opensDouble_eq_some {kind : Kind} (opens : table.opensDouble c after = some kind) :
    ∃ d rest, after = d :: rest ∧ table.double c d = some kind := by
  rw [SymbolTable.opensDouble_eq] at opens
  cases after with
  | nil => cases opens
  | cons d rest => exact ⟨d, rest, rfl, opens⟩

theorem opensComment_of_blank (sound : Sound table) (blank : StartsBlank after) :
    table.opensComment c after = false := by
  apply Bool.eq_false_iff.mpr
  intro opens
  obtain ⟨d, rest, rfl, marker⟩ := opensComment_eq_true opens
  have plain := sound.marker.2
  rw [marker, (isBlank_class (blank d rfl)).1] at plain
  cases plain

theorem opensDouble_of_blank (sound : Sound table) (blank : StartsBlank after) :
    table.opensDouble c after = none := by
  apply Option.eq_none_iff_forall_ne_some.mpr
  intro kind opens
  obtain ⟨d, rest, rfl, bound⟩ := opensDouble_eq_some opens
  have plain := (sound.double_unreserved bound).2
  rw [isReserved_of_isBlank (blank d rfl)] at plain
  cases plain

end Front

section Scanned
variable {table : SymbolTable} (sound : Sound table) {c : Char} {rest : List Char}
include sound

theorem Reading.of_scanned {lexeme : Lexeme} (reading : Reading table c rest lexeme)
    (scanned : lexeme.kind.isScanned = true) :
    (table.opensComment c rest = true ∧ lexeme = .run .comment (· ≠ '\n') c rest) ∨
      table.opensComment c rest = false ∧ table.opensDouble c rest = none ∧ table.single c = none ∧
        (lexeme = .run .number Char.isDigit c rest ∨ lexeme = .run .identifier isWordCharacter c rest ∨
          lexeme = ⟨.invalid, [c], rest⟩) := by
  cases reading with
  | comment opens => exact .inl ⟨opens, rfl⟩
  | double _ bound =>
    obtain ⟨d, _, _, bound⟩ := opensDouble_eq_some bound
    exact absurd scanned (by simp [sound.double_kind bound])
  | single _ _ bound => exact absurd scanned (by simp [sound.single_kind bound])
  | number plain unbound free => exact .inr ⟨plain, unbound, free, .inl rfl⟩
  | identifier plain unbound free => exact .inr ⟨plain, unbound, free, .inr (.inl rfl)⟩
  | invalid plain unbound free => exact .inr ⟨plain, unbound, free, .inr (.inr rfl)⟩

theorem opensComment_of_kind (comment : (table.lexeme c rest).kind = .comment) :
    table.opensComment c rest = true := by
  rcases (reading_lexeme table c rest).of_scanned sound (by rw [comment]; rfl) with
    ⟨opens, _⟩ | ⟨_, _, _, own | own | own⟩
  · exact opens
  all_goals
    rw [own] at comment
    cases comment

theorem eq_lineFeed_of_comment (comment : (table.lexeme c rest).kind = .comment) {next : Char}
    (first : (table.lexeme c rest).rest.head? = some next) : next = '\n' := by
  rw [(Reading.comment (opensComment_of_kind sound comment)).eq] at first
  have stopped := List.head?_dropWhile_not (· ≠ '\n') rest
  rw [show (rest.dropWhile (· ≠ '\n')).head? = some next from first] at stopped
  simpa using stopped

theorem lexeme_of_invalid (invalid : (table.lexeme c rest).kind = .invalid) :
    table.lexeme c rest = ⟨.invalid, [c], rest⟩ ∧ table.single c = none := by
  rcases (reading_lexeme table c rest).of_scanned sound (by rw [invalid]; rfl) with
    ⟨_, own⟩ | ⟨_, _, free, own | own | own⟩
  case inr.inr.inr => exact ⟨own, free⟩
  all_goals
    rw [own] at invalid
    cases invalid

end Scanned

private theorem run_append (kind : Kind) {member : Char → Bool} (c : Char) (rest : List Char) {after : List Char}
    (ends : ∀ next, after.head? = some next → member next = false) :
    Lexeme.run kind member c (rest.takeWhile member ++ after) =
      ⟨(Lexeme.run kind member c rest).kind, c :: rest.takeWhile member, after⟩ := by
  have inside : ∀ d ∈ rest.takeWhile member, member d = true := fun d => List.mem_takeWhile_imp
  have stopped : after.takeWhile member = [] ∧ after.dropWhile member = after := by
    cases after with
    | nil => simp
    | cons d after => simp [ends d rfl]
  simp only [Lexeme.run, List.takeWhile_append_of_pos inside, List.dropWhile_append_of_pos inside,
    stopped, List.append_nil]

/-- Behind a run stands a character that does not belong to it, and so does every other that may follow. -/
theorem ends_of_follows {kind : Kind} {member : Char → Bool} {c : Char} {rest after : List Char}
    (follows : Follows (.run kind member c rest) after)
    (blank : ∀ next, Text.isBlank next = true → (kind = .comment → next = '\n') → member next = false) :
    ∀ next, after.head? = some next → member next = false := by
  intro next first
  cases follows with
  | same same =>
    have stopped := List.head?_dropWhile_not member rest
    rw [show (rest.dropWhile member).head? = some next from same.symm.trans first] at stopped
    exact stopped
  | blank blanks line => exact blank next (blanks next first) fun own => line own next first

theorem Reading.append {table : SymbolTable} (sound : Sound table) {c : Char} {rest body after : List Char}
    {lexeme : Lexeme} (reading : Reading table c rest lexeme) (text : lexeme.text = c :: body)
    (whole : rest = body ++ lexeme.rest) (follows : Follows lexeme after) :
    Reading table c (body ++ after) ⟨lexeme.kind, c :: body, after⟩ := by
  have front : (body ++ after).head? = rest.head? ∨ body = [] ∧ StartsBlank after := by
    cases body with
    | nil =>
      cases follows with
      | same same => exact .inl (by rw [whole]; exact same)
      | blank blanks _ => exact .inr ⟨rfl, blanks⟩
    | cons d body => exact .inl (by rw [whole]; rfl)
  have kept : body ≠ [] → (body ++ after).head? = rest.head? :=
    fun nonempty => front.resolve_right fun blank => nonempty blank.1
  have plain : table.opensComment c rest = false → table.opensComment c (body ++ after) = false := by
    intro plain
    rcases front with same | ⟨rfl, blank⟩
    · rwa [opensComment_congr same]
    · exact opensComment_of_blank sound blank
  have unbound : table.opensDouble c rest = none → table.opensDouble c (body ++ after) = none := by
    intro unbound
    rcases front with same | ⟨rfl, blank⟩
    · rwa [opensDouble_congr same]
    · exact opensDouble_of_blank sound blank
  cases reading with
  | comment opens =>
    obtain rfl := (List.cons.inj text).2
    have ends := ends_of_follows follows fun next _ line => by simp [line rfl]
    rw [← run_append .comment c rest ends]
    obtain ⟨d, behind, rfl, marker⟩ := opensComment_eq_true opens
    have inside : d ≠ '\n' := by
      rintro rfl
      have visible := sound.marker.2
      rw [marker] at visible
      cases visible
    exact .comment ((opensComment_congr (kept (by simp [inside]))).trans opens)
  | double first bound =>
    obtain rfl := (List.cons.inj text).2
    obtain ⟨d, behind, rfl, _⟩ := opensDouble_eq_some bound
    exact .double (plain first) ((opensDouble_congr rfl).trans bound)
  | single first second bound =>
    obtain rfl := (List.cons.inj text).2
    exact .single (plain first) (unbound second) bound
  | number first second free digit =>
    obtain rfl := (List.cons.inj text).2
    have ends := ends_of_follows follows fun next blank _ => (isBlank_class blank).2.1
    rw [← run_append .number c rest ends]
    exact .number (plain first) (unbound second) free digit
  | identifier first second free other letter =>
    obtain rfl := (List.cons.inj text).2
    have ends := ends_of_follows follows fun next blank _ => (isBlank_class blank).2.2
    rw [← run_append .identifier c rest ends]
    exact .identifier (plain first) (unbound second) free other letter
  | invalid first second free other sign =>
    obtain rfl := (List.cons.inj text).2
    exact .invalid (plain first) (unbound second) free other sign

theorem lexeme_text_cons (table : SymbolTable) (c : Char) (rest : List Char) :
    ∃ body, (table.lexeme c rest).text = c :: body ∧ rest = body ++ (table.lexeme c rest).rest := by
  have whole := table.lexeme_text_append_rest c rest
  cases text : (table.lexeme c rest).text with
  | nil => exact absurd text (table.lexeme_text_ne_nil c rest)
  | cons first body =>
    rw [text, List.cons_append] at whole
    obtain ⟨rfl, same⟩ := List.cons.inj whole
    exact ⟨body, rfl, same.symm⟩

/-- The same lexeme is read wherever its text stands before something that may follow. -/
theorem lexeme_append {table : SymbolTable} (sound : Sound table) {c : Char} {rest body after : List Char}
    (text : (table.lexeme c rest).text = c :: body) (whole : rest = body ++ (table.lexeme c rest).rest)
    (follows : Follows (table.lexeme c rest) after) :
    table.lexeme c (body ++ after) = ⟨(table.lexeme c rest).kind, c :: body, after⟩ :=
  ((reading_lexeme table c rest).append sound text whole follows).eq

end CantoScan.Proofs.LexemeReach
