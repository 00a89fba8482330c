import CantoScan.Proofs.FileLayout
import CantoScan.Proofs.SkipStrictness

/-! A text is read as a symbol table file exactly if it is laid out as one. No other text is taken for a
file, so what the layouts say of a file is all that can be said of it. -/

namespace CantoScan.Proofs.FileStrictness
open Json Json.Reader JsonGrammar JsonReading JsonStrictness SkipStrictness FileLayout TableFile

section Fields
variable {α β σ : Type} {name : String} {form : α → List Char → Prop} {given last : Option α}
  {members : Members} {member : String × List Char} {value : α} {text : List Char}

/-- What members have made of a field: what it was before, or what the one with its name has put there. -/
inductive Filled (name : String) (form : α → List Char → Prop) (given : Option α) (members : Members) :
    Option α → Prop where
  | kept : Absent members name → Filled name form given members given
  | once {value : α} :
      given = none → Once members name (form value) → Filled name form given members (some value)

private theorem filled_named (formed : form value text) (filled : Filled name form (some value) members last) :
    Filled name form none ((name, text) :: members) last := by
  cases filled with
  | kept absent =>
    refine .once rfl ⟨text, ?_, formed⟩
    rw [List.filter_cons_of_pos (by simp), List.filter_eq_nil_iff.mpr (by simpa [Absent] using absent)]
  | once none => cases none

private theorem filled_other (other : member.1 ≠ name) (filled : Filled name form given members last) :
    Filled name form given (member :: members) last := by
  cases filled with
  | kept absent => exact .kept (List.forall_mem_cons.mpr ⟨other, absent⟩)
  | once none once =>
    obtain ⟨text, only, formed⟩ := once
    exact .once none ⟨text, by rwa [List.filter_cons_of_neg (by simpa using other)], formed⟩

/-- What one member does to a record of two fields: it fills the one with its name, or has another name
and any value. -/
inductive Sets (first second : String) (left : α → List Char → Prop) (right : β → List Char → Prop)
    (firstOf : σ → Option α) (secondOf : σ → Option β) (state : σ) : String → σ → List Char → Prop where
  | first {next : σ} {value : α} {text : List Char} :
      firstOf state = none → firstOf next = some value → secondOf next = secondOf state → left value text →
      Sets first second left right firstOf secondOf state first next text
  | second {next : σ} {value : β} {text : List Char} :
      secondOf state = none → secondOf next = some value → firstOf next = firstOf state → right value text →
      Sets first second left right firstOf secondOf state second next text
  | other {name : String} {text : List Char} :
      name ∉ [first, second] → Wellformed text →
      Sets first second left right firstOf secondOf state name state text

variable {first second : String} {left : α → List Char → Prop} {right : β → List Char → Prop}
  {firstOf : σ → Option α} {secondOf : σ → Option β} {state state' : σ}

/-- A record of two fields, by induction on its members. -/
theorem filled_of_gathered (distinct : first ≠ second)
    (gathered : Gathered (fun state member next =>
      Sets first second left right firstOf secondOf state member.1 next member.2) state members state') :
    Filled first left (firstOf state) members (firstOf state') ∧
      Filled second right (secondOf state) members (secondOf state') ∧ Extras members [first, second] := by
  induction gathered with
  | nil => exact ⟨.kept (by simp [Absent]), .kept (by simp [Absent]), by simp [Extras]⟩
  | @cons state next last member members sets _ ih =>
    obtain ⟨filledFirst, filledSecond, extras⟩ := ih
    obtain ⟨name, text⟩ := member
    dsimp only at sets
    cases sets with
    | first empty filled same formed =>
      rw [filled] at filledFirst
      rw [same] at filledSecond
      rw [empty]
      exact ⟨filled_named formed filledFirst, filled_other distinct filledSecond,
        List.forall_mem_cons.mpr ⟨by simp, extras⟩⟩
    | second empty filled same formed =>
      rw [filled] at filledSecond
      rw [same] at filledFirst
      rw [empty]
      exact ⟨filled_other distinct.symm filledFirst, filled_named formed filledSecond,
        List.forall_mem_cons.mpr ⟨by simp, extras⟩⟩
    | other extra wellformed =>
      have others : name ≠ first ∧ name ≠ second := by simpa using extra
      exact ⟨filled_other others.1 filledFirst, filled_other others.2 filledSecond,
        List.forall_mem_cons.mpr ⟨fun _ => wellformed, extras⟩⟩

private theorem once_eq_ok {reader found : Reader β} {given : Option α}
    (selected : once name given reader = .ok found) : given = none ∧ reader = found := by
  unfold once at selected
  split at selected
  next => cases selected
  next empty => exact ⟨by simpa using empty, Except.ok.inj selected⟩

/-- A field that is filled by the value behind its name, as long as it is empty. -/
theorem takesOnly_select {reader : Reader σ} {leftReader : Reader α} {rightReader : Reader β}
    {putFirst : α → σ} {putSecond : β → σ}
    (selected : (if name = first then once name (firstOf state) (putFirst <$> leftReader)
      else if name = second then once name (secondOf state) (putSecond <$> rightReader)
      else .ok (ignored state)) = .ok reader)
    (onlyLeft : TakesOnly leftReader left) (onlyRight : TakesOnly rightReader right)
    (filledFirst : ∀ value, firstOf (putFirst value) = some value ∧ secondOf (putFirst value) = secondOf state)
    (filledSecond : ∀ value,
      secondOf (putSecond value) = some value ∧ firstOf (putSecond value) = firstOf state) :
    TakesOnly reader fun next text => Sets first second left right firstOf secondOf state name next text := by
  split at selected
  next same =>
    obtain ⟨empty, rfl⟩ := once_eq_ok selected
    refine (onlyLeft.map putFirst).weaken fun next text ⟨value, formed, set⟩ => ?_
    obtain ⟨filled, kept⟩ := filledFirst value
    rw [same, set]
    exact .first empty filled kept formed
  split at selected
  next same =>
    obtain ⟨empty, rfl⟩ := once_eq_ok selected
    refine (onlyRight.map putSecond).weaken fun next text ⟨value, formed, set⟩ => ?_
    obtain ⟨filled, kept⟩ := filledSecond value
    rw [same, set]
    exact .second empty filled kept formed
  next notFirst notSecond =>
    obtain rfl := Except.ok.inj selected
    refine (takesOnly_ignored state).weaken fun next text ⟨same, wellformed⟩ => ?_
    rw [same]
    exact .other (by simp [notFirst, notSecond]) wellformed

private theorem required_eq_ok {given : Option α} {rest : List Char}
    (done : (required name given).run text = .ok (value, rest)) : given = some value ∧ text = rest := by
  cases given with
  | none => cases done
  | some found =>
    cases done
    exact ⟨rfl, rfl⟩

private theorem once_of_filled (filled : Filled name form none members (some value)) :
    Once members name (form value) := by
  cases filled with
  | once _ once => exact once

private theorem commented_of_filled {comment : Option String}
    (filled : Filled "comment" StringText none members comment) :
    Commented (comment.getD defaultComment) members := by
  cases filled with
  | kept absent => exact .inr ⟨rfl, absent⟩
  | once _ once => exact .inl once

end Fields

section Kinds
variable {text rest : List Char} {kind : Kind}

private theorem eq_name_of_ofName {name : String} (known : Kind.ofName name = .ok kind) : name = kind.name := by
  unfold Kind.ofName at known
  split at known
  next found =>
    cases known
    rw [Kind.ofName?] at found
    have same := List.find?_some found
    exact (eq_of_beq same).symm
  next => cases known

private theorem takesOnly_text : TakesOnly Reader.text StringText := by
  intro text rest value done
  obtain ⟨gap, c, body, rfl, blanks, more⟩ := exists_of_peek done (fails_mismatch _)
  split at more
  next quoted =>
    obtain rfl := Option.some.inj quoted
    exact takesOnly_of_behind takesOnlyBehind_string blanks more
  next => exact absurd more (fails_mismatch _ _ _)

private theorem takesOnly_unit : TakesOnly unit fun _ text => text = "null".toList := by
  intro text rest value done
  obtain ⟨gap, c, body, rfl, blanks, more⟩ := exists_of_peek done (fails_mismatch _)
  split at more
  next letter =>
    obtain rfl := Option.some.inj letter
    rw [run_bind_of_ok (run_discard_next _), List.tail_cons] at more
    exact ⟨gap, "null".toList, by simp [eq_of_word more], blanks, rfl⟩
  next => exact absurd more (fails_mismatch _ _ _)

private theorem takesOnly_tag : TakesOnly Kind.tag StringText := by
  intro text rest name done
  obtain ⟨gap, c, body, rfl, blanks, more⟩ := exists_of_peek done (fails_fail _)
  split at more
  next => cases more
  next => cases more
  next => exact takesOnly_key.behind_blanks blanks more

private theorem takesOnlyBehind_tagged :
    TakesOnlyBehind '{' Kind.taggedReader fun kind text => ObjectText [(kind.name, "null".toList)] text := by
  intro text rest kind done
  obtain ⟨name, _, named, afterName⟩ := run_bind_eq_ok.mp done
  obtain ⟨found, _, known, afterKind⟩ := run_bind_eq_ok.mp afterName
  obtain ⟨_, _, colon, afterColon⟩ := run_bind_eq_ok.mp afterKind
  obtain ⟨_, _, null, afterNull⟩ := run_bind_eq_ok.mp afterColon
  obtain ⟨last, c, _, rfl, lastBlanks, closer⟩ := exists_of_peek afterNull (fails_fail _)
  dsimp only at closer
  split at closer
  next closed =>
    cases closer
    obtain ⟨gap, key, rfl, blanks, spelled⟩ := takesOnly_tag named
    obtain ⟨meant, rfl⟩ := run_ofExcept_eq_ok.mp known
    obtain ⟨before, rfl, beforeBlanks⟩ := eq_of_colon colon
    obtain ⟨behind, value, rfl, behindBlanks, rfl⟩ := takesOnly_unit null
    obtain rfl := eq_name_of_ofName meant
    have joined : Joined key "null".toList _ := .joined beforeBlanks behindBlanks
    refine ⟨_, ?_, .object (.cons ⟨key, spelled, joined⟩ .nil)
      (enclosed_of_concludes (concludes_closer lastBlanks) blanks)⟩
    simp [closed, Bracket.closer]
  next => cases closer

private theorem takesOnly_kind : TakesOnly Kind.reader KindText := by
  intro text rest kind done
  obtain ⟨gap, c, body, rfl, blanks, more⟩ := exists_of_peek done (fails_fail _)
  rw [run_bind_of_ok (run_discard_next _), List.tail_cons] at more
  split at more
  next quoted =>
    obtain ⟨name, _, spelled, known⟩ := run_bind_eq_ok.mp more
    obtain ⟨meant, rfl⟩ := run_ofExcept_eq_ok.mp known
    obtain ⟨gap', read, whole, blanksToo, form⟩ := takesOnly_of_behind takesOnlyBehind_string blanks spelled
    exact ⟨gap', read, quoted ▸ whole, blanksToo, .name (eq_name_of_ofName meant ▸ form)⟩
  next =>
    split at more
    next opened =>
      obtain ⟨gap', read, whole, blanksToo, form⟩ := takesOnly_of_behind takesOnlyBehind_tagged blanks more
      exact ⟨gap', read, opened ▸ whole, blanksToo, .tagged form⟩
    next => cases more

end Kinds

section Files

private theorem takesOnly_entryMember {state : PartialEntry} {name : String} {reader : Reader PartialEntry}
    (selected : entryMember state name = .ok reader) : TakesOnly reader fun next text =>
      Sets "literal" "kind" StringText KindText PartialEntry.literal PartialEntry.kind state name next text :=
  takesOnly_select selected takesOnly_text takesOnly_kind (fun _ => ⟨rfl, rfl⟩) (fun _ => ⟨rfl, rfl⟩)

private theorem takesOnly_entry : TakesOnly TableFile.entry EntryText := by
  refine takesOnly_record _ ?_ ?_
  · intro text rest found done
    obtain ⟨read, rfl, literal, kind, literalForm, kindForm, enclosed⟩ :=
      takesOnlyBehind_pair takesOnly_text takesOnly_kind _ _ done
    exact ⟨read, rfl, .list literalForm kindForm enclosed⟩
  · intro text rest found done
    obtain ⟨state, _, taken, more⟩ := run_bind_eq_ok.mp done
    obtain ⟨literal, _, givenLiteral, afterLiteral⟩ := run_bind_eq_ok.mp more
    obtain ⟨kind, _, givenKind, last⟩ := run_bind_eq_ok.mp afterLiteral
    obtain ⟨literalSet, rfl⟩ := required_eq_ok givenLiteral
    obtain ⟨kindSet, rfl⟩ := required_eq_ok givenKind
    cases last
    obtain ⟨read, rfl, members, form, gathered⟩ := takesOnlyBehind_members takesOnly_entryMember taken
    obtain ⟨filledLiteral, filledKind, extras⟩ := filled_of_gathered (by decide) gathered
    rw [literalSet] at filledLiteral
    rw [kindSet] at filledKind
    exact ⟨read, rfl, .object (once_of_filled filledLiteral) (once_of_filled filledKind) extras form⟩

private theorem takesOnly_entries : TakesOnly TableFile.entries EntriesText := by
  intro text rest found done
  obtain ⟨gap, c, body, rfl, blanks, more⟩ := exists_of_peek done (fails_mismatch _)
  split at more
  next opened =>
    obtain rfl := Option.some.inj opened
    exact takesOnly_of_behind (takesOnlyBehind_items takesOnly_entry) blanks more
  next => exact absurd more (fails_mismatch _ _ _)

private theorem takesOnly_fileMember {state : PartialFile} {name : String} {reader : Reader PartialFile}
    (selected : fileMember state name = .ok reader) : TakesOnly reader fun next text =>
      Sets "comment" "symbols" StringText EntriesText PartialFile.comment PartialFile.symbols state name next
        text :=
  takesOnly_select selected takesOnly_text takesOnly_entries (fun _ => ⟨rfl, rfl⟩) (fun _ => ⟨rfl, rfl⟩)

private theorem takesOnly_file :
    TakesOnly TableFile.reader fun file text => FileText file.comment file.symbols text := by
  refine takesOnly_record _ ?_ ?_
  · intro text rest file done
    obtain ⟨parts, taken, rfl⟩ := run_map_eq_ok.mp done
    obtain ⟨read, rfl, comment, symbols, commentForm, symbolsForm, enclosed⟩ :=
      takesOnlyBehind_pair takesOnly_text takesOnly_entries _ _ taken
    exact ⟨read, rfl, .list commentForm symbolsForm enclosed⟩
  · intro text rest file done
    obtain ⟨state, _, taken, more⟩ := run_bind_eq_ok.mp done
    obtain ⟨symbols, _, givenSymbols, last⟩ := run_bind_eq_ok.mp more
    obtain ⟨symbolsSet, rfl⟩ := required_eq_ok givenSymbols
    cases last
    obtain ⟨read, rfl, members, form, gathered⟩ := takesOnlyBehind_members takesOnly_fileMember taken
    obtain ⟨filledComment, filledSymbols, extras⟩ := filled_of_gathered (by decide) gathered
    rw [symbolsSet] at filledSymbols
    exact ⟨read, rfl, .object (commented_of_filled filledComment) (once_of_filled filledSymbols) extras form⟩

/-- A text is read as a file exactly if it is a layout of it. -/
theorem parse_eq_ok_iff {text : String} {file : TableFile} :
    TableFile.parse text = .ok file ↔ Layout file.comment file.symbols text.toList := by
  constructor
  · intro read
    obtain ⟨behind, done, blanksToo⟩ := exists_of_read read
    obtain ⟨before, inner, whole, blanks, form⟩ := takesOnly_file done
    rw [whole]
    exact .layout blanks form blanksToo
  · exact parse_layout

end Files

end CantoScan.Proofs.FileStrictness
