import CantoScan.Proofs.CommentBlanking

/-! Bound literals in a source. No binding is hidden by the comment marker, by another literal or by a run of
letters or digits, so each is read wherever it stands alone, and nothing else gives a kind that is not
scanned. -/

namespace CantoScan.Proofs.BoundLiterals
open SymbolTable TableRules LexemeLaw LexemeReach ScanReading Tiling TokenStream CommentBlanking

/-- What a table answers for a literal. -/
def kindOf? (table : SymbolTable) (literal : String) : Option Kind :=
  match literal.toList with
  | [c] => table.single c
  | [first, second] => table.double first second
  | _ => none

/-- A literal as the whole of a source. -/
def alone (literal : String) (kind : Kind) : List Token :=
  let length := literal.length
  [⟨kind, literal, ⟨0, length, 1, 1⟩⟩, ⟨.endOfInput, "", ⟨length, length, 1, length + 1⟩⟩]

private theorem lookup_of_mem {α : Type} [BEq α] [LawfulBEq α] {key : α} {kind : Kind}
    {bindings : List (α × Kind)} (distinct : (bindings.map Prod.fst).Nodup)
    (member : (key, kind) ∈ bindings) : bindings.lookup key = some kind := by
  induction bindings with
  | nil => cases member
  | cons binding bindings ih =>
    obtain ⟨absent, distinct⟩ := List.nodup_cons.mp distinct
    rw [List.lookup_cons]
    rcases List.mem_cons.mp member with rfl | later
    · rw [beq_self_eq_true]
    · have different : key ≠ binding.1 := fun same => absent (same ▸ List.mem_map_of_mem later)
      rw [beq_eq_false_iff_ne.mpr different]
      exact ih distinct later

section Entries
variable {table : SymbolTable} {literal : String} {kind : Kind}

private theorem mem_entries_of_kindOf? (bound : kindOf? table literal = some kind) :
    (literal, kind) ∈ table.entries := by
  unfold kindOf? at bound
  split at bound
  next c one =>
    rw [← literal.ofList_toList, one]
    exact mem_entries_of_single bound
  next first second two =>
    rw [← literal.ofList_toList, two]
    exact mem_entries_of_double bound
  · cases bound

theorem mem_entries_iff (sound : Sound table) :
    (literal, kind) ∈ table.entries ↔ kindOf? table literal = some kind := by
  refine ⟨?_, mem_entries_of_kindOf?⟩
  intro member
  rcases List.mem_append.mp member with single | double
  · obtain ⟨binding, inside, same⟩ := List.mem_map.mp single
    obtain ⟨rfl, rfl⟩ := Prod.mk.inj same
    simp only [kindOf?, String.toList_ofList]
    exact lookup_of_mem sound.singles inside
  · obtain ⟨binding, inside, same⟩ := List.mem_map.mp double
    obtain ⟨rfl, rfl⟩ := Prod.mk.inj same
    simp only [kindOf?, String.toList_ofList]
    exact lookup_of_mem sound.doubles inside

theorem literalOf?_eq_none_iff : table.literalOf? kind = none ↔ ∀ entry ∈ table.entries, entry.2 ≠ kind := by
  constructor
  · intro nothing entry member
    unfold literalOf? at nothing
    split at nothing
    · cases nothing
    next absent =>
      rcases List.mem_append.mp member with single | double
      · obtain ⟨binding, inside, rfl⟩ := List.mem_map.mp single
        simpa using List.find?_eq_none.mp absent binding inside
      · obtain ⟨binding, inside, rfl⟩ := List.mem_map.mp double
        simpa using List.find?_eq_none.mp (Option.map_eq_none_iff.mp nothing) binding inside
  · intro absent
    cases spelling : table.literalOf? kind with
    | none => rfl
    | some literal => exact absurd rfl (absent _ (mem_entries_of_literalOf? spelling))

end Entries

section SoundTable
variable {table : SymbolTable} (sound : Sound table) {literal : String} {kind : Kind}
include sound

private theorem startsComment_of_double {first second : Char} (bound : table.double first second = some kind) :
    table.startsComment first second = false := by
  apply decide_eq_false
  intro same
  obtain ⟨before, behind, split, _⟩ := List.lookup_eq_some_iff.mp bound
  exact sound.apart (List.mem_map.mpr ⟨((first, second), kind), by simp [split], same.symm⟩)

/-- Before a blank and at the end of a source every bound literal is read as it is bound. -/
theorem lexeme_of_kindOf? (bound : kindOf? table literal = some kind) {after : List Char}
    (blank : StartsBlank after) :
    ∃ c body, literal.toList = c :: body ∧ Text.isBlank c = false ∧
      table.lexeme c (body ++ after) = ⟨kind, c :: body, after⟩ := by
  unfold kindOf? at bound
  split at bound
  next c one =>
    have reading : Reading table c after ⟨kind, [c], after⟩ :=
      .single (opensComment_of_blank sound blank) (opensDouble_of_blank sound blank) bound
    exact ⟨c, [], one, isBlank_of_unreserved (sound.single_unreserved bound), reading.eq⟩
  next first second two =>
    have plain : table.opensComment first (second :: after) = false := startsComment_of_double sound bound
    have opens : table.opensDouble first (second :: after) = some kind := by
      rw [opensDouble_eq]
      exact bound
    exact ⟨first, [second], two, isBlank_of_unreserved (sound.double_unreserved bound).1,
      Reading.eq (.double plain opens)⟩
  · cases bound

private theorem tokenize_of_kindOf? (bound : kindOf? table literal = some kind) :
    table.tokenize literal = alone literal kind := by
  have ended : StartsBlank [] := by
    rintro next ⟨⟩
  obtain ⟨c, body, text, visible, read⟩ := lexeme_of_kindOf? sound bound ended
  have single : '\n' ∉ literal.toList := by
    intro inside
    have plain := sound.unreserved _ (mem_entries_of_kindOf? bound) '\n' inside
    exact absurd plain (by decide)
  have place : Position.origin.after literal.toList = ⟨literal.length, 1, literal.length + 1⟩ := by
    rw [after_of_single single, String.length_toList]
    simp [Position.origin, Nat.add_comm]
  have inner : innerTokens table literal = [⟨kind, literal, ⟨0, literal.length, 1, 1⟩⟩] := by
    rw [List.append_nil] at read
    have tokens : innerFrom table ⟨.origin, c :: body⟩ =
        ⟨kind, String.ofList (c :: body), .between .origin (Position.origin.after (c :: body))⟩ ::
          innerFrom table ⟨Position.origin.after (c :: body), []⟩ :=
      innerFrom_append_lexeme .origin (List.forall_mem_nil _) sound visible read
    have last : innerFrom table ⟨Position.origin.after (c :: body), []⟩ = [] := innerFrom_of_blank rfl
    rw [last, ← text, String.ofList_toList, place] at tokens
    exact tokens
  rw [(tokenize_tiles sound literal).1, inner, place]
  rfl

private theorem exists_entry_of_token {source : String} {token : Token} (member : token ∈ table.tokenize source)
    (unscanned : token.kind.isScanned = false) : ∃ entry ∈ table.entries, entry.2 = token.kind := by
  have inner : token.kind ≠ .endOfInput := by
    intro last
    rw [last] at unscanned
    cases unscanned
  obtain ⟨_, _, stand⟩ := tokenize_tiles sound source
  have stands := stand token (mem_innerTokens.mpr ⟨member, inner⟩)
  obtain ⟨_, double | ⟨_, single⟩⟩ := (kindLaw_of_rule sound stands.rule).bound.mp unscanned
  · obtain ⟨first, second, _, _, bound⟩ := doubleAt_eq_some double
    exact ⟨_, mem_entries_of_double bound, rfl⟩
  · obtain ⟨c, _, bound⟩ := singleAt_eq_some single
    exact ⟨_, mem_entries_of_single bound, rfl⟩

private theorem literalOf?_eq_none_iff_unseen (unscanned : kind.isScanned = false) :
    table.literalOf? kind = none ↔ ∀ source, ∀ token ∈ table.tokenize source, token.kind ≠ kind := by
  rw [literalOf?_eq_none_iff]
  constructor
  · intro absent source token member same
    obtain ⟨entry, inside, other⟩ := exists_entry_of_token sound member (same ▸ unscanned)
    exact absent entry inside (other.trans same)
  · rintro unseen ⟨literal, bound⟩ member rfl
    have tokens := tokenize_of_kindOf? sound ((mem_entries_iff sound).mp member)
    exact unseen literal ⟨bound, literal, ⟨0, literal.length, 1, 1⟩⟩ (by simp [tokens, alone]) rfl

end SoundTable

/-- Under every table that can be made, each bound literal is read as itself where it stands alone, and so
is the spelling of a kind. A kind that is not scanned lacks a spelling exactly if it occurs in no source;
one that is scanned has none. -/
theorem tokenize_alone {table : SymbolTable} (obtained : Obtainable table) :
    (∀ literal kind, (literal, kind) ∈ table.entries ↔ kindOf? table literal = some kind) ∧
      (∀ literal kind, kindOf? table literal = some kind → table.tokenize literal = alone literal kind) ∧
      ∀ kind,
        (∀ literal, table.literalOf? kind = some literal → table.tokenize literal = alone literal kind) ∧
        (kind.isScanned = false →
          (table.literalOf? kind = none ↔
            ∀ source, ∀ token ∈ table.tokenize source, token.kind ≠ kind)) ∧
        (kind.isScanned = true → table.literalOf? kind = none) := by
  have sound := obtained.sound
  refine ⟨fun _ _ => mem_entries_iff sound, fun _ _ => tokenize_of_kindOf? sound, ?_⟩
  intro kind
  refine ⟨?_, literalOf?_eq_none_iff_unseen sound, ?_⟩
  · intro literal spelling
    exact tokenize_of_kindOf? sound ((mem_entries_iff sound).mp (mem_entries_of_literalOf? spelling))
  · intro scanned
    apply literalOf?_eq_none_iff.mpr
    rintro entry member rfl
    exact absurd (sound.bindable entry member) (by simp [scanned])

theorem tokenize_alone_slash :
    let table := attempt .cantonese "/a" .orWord
    Obtainable table ∧ table.tokenize "/a" = alone "/a" .orWord ∧ table.literalOf? .orWord = some "或者" ∧
      table.tokenize "或者" = alone "或者" .orWord ∧ table.literalOf? .comment = none ∧
      ∀ source, ∀ token ∈ (attempt ⟨[], [], ('/', '/')⟩ "/a" .orWord).tokenize source,
        token.kind ≠ .divide := by
  intro table
  have obtained : Obtainable table := .insert _ _ .cantonese
  obtain ⟨_, bound, spelled⟩ := tokenize_alone obtained
  have made : SymbolTable.empty "//" = .ok ⟨[], [], ('/', '/')⟩ := by decide
  have single : Obtainable (attempt ⟨[], [], ('/', '/')⟩ "/a" .orWord) := .insert _ _ (.empty made)
  have spelling : table.literalOf? .orWord = some "或者" := by decide +kernel
  exact ⟨obtained, bound _ _ (by decide +kernel), spelling, (spelled .orWord).1 _ spelling,
    (spelled .comment).2.2 rfl, (((tokenize_alone single).2.2 .divide).2.1 rfl).mp (by decide +kernel)⟩

end CantoScan.Proofs.BoundLiterals
