import CantoScan.Proofs.JsonSkipping
import CantoScan.Table.File

/-! The layouts of a symbol table file, and that all of them say the same. Neither the order of members,
nor members that no one asks for, nor the spelling of strings has an effect on the table. -/

namespace CantoScan.Proofs.FileLayout
open Json Json.Reader JsonGrammar JsonReading JsonSkipping TableFile

abbrev Members := List (String × List Char)

/-- A member that is there once, and the form of its value. -/
def Once (members : Members) (name : String) (form : List Char → Prop) : Prop :=
  ∃ text, members.filter (·.1 = name) = [(name, text)] ∧ form text

def Absent (members : Members) (name : String) : Prop := ∀ member ∈ members, member.1 ≠ name

/-- Members with other names may have any value. -/
def Extras (members : Members) (known : List String) : Prop :=
  ∀ member ∈ members, member.1 ∉ known → Wellformed member.2

inductive KindText (kind : Kind) (text : List Char) : Prop where
  | name : StringText kind.name text → KindText kind text
  | tagged : ObjectText [(kind.name, "null".toList)] text → KindText kind text

inductive EntryText (entry : String × Kind) (text : List Char) : Prop where
  | list {literal kind : List Char} :
      StringText entry.1 literal → KindText entry.2 kind → Enclosed .list [literal, kind] text →
      EntryText entry text
  | object {members : Members} :
      Once members "literal" (StringText entry.1) → Once members "kind" (KindText entry.2) →
      Extras members ["literal", "kind"] → ObjectText members text → EntryText entry text

def EntriesText (entries : List (String × Kind)) (text : List Char) : Prop :=
  ∃ texts, List.Forall₂ EntryText entries texts ∧ Enclosed .list texts text

/-- An object that names no marker has the usual one. -/
def Commented (marker : String) (members : Members) : Prop :=
  Once members "comment" (StringText marker) ∨ marker = "//" ∧ Absent members "comment"

inductive FileText (marker : String) (entries : List (String × Kind)) (text : List Char) : Prop where
  | list {comment symbols : List Char} :
      StringText marker comment → EntriesText entries symbols → Enclosed .list [comment, symbols] text →
      FileText marker entries text
  | object {members : Members} :
      Commented marker members → Once members "symbols" (EntriesText entries) →
      Extras members ["comment", "symbols"] → ObjectText members text → FileText marker entries text

inductive Layout (marker : String) (entries : List (String × Kind)) : List Char → Prop where
  | layout {before file behind : List Char} :
      Blanks before → FileText marker entries file → Blanks behind →
      Layout marker entries (before ++ (file ++ behind))

section Fields
variable {α β σ : Type} {name : String} {reader : Reader α} {given last : Option α} {members : Members}

/-- What members do to a field: the one with its name fills it, if it is not yet filled. -/
inductive Fills (name : String) (reader : Reader α) : Option α → Members → Option α → Prop where
  | nil {given : Option α} : Fills name reader given [] given
  | named {value : α} {text : List Char} {members : Members} {last : Option α} :
      Accepts reader text value → Fills name reader (some value) members last →
      Fills name reader none ((name, text) :: members) last
  | other {member : String × List Char} {members : Members} {given last : Option α} :
      member.1 ≠ name → Fills name reader given members last →
      Fills name reader given (member :: members) last

private theorem fills_of_absent (absent : Absent members name) (given : Option α) :
    Fills name reader given members given := by
  induction members with
  | nil => exact .nil
  | cons member members ih =>
    obtain ⟨other, absent⟩ := List.forall_mem_cons.mp absent
    exact .other other (ih absent)

private theorem fills_of_once {form : List Char → Prop} {value : α} (once : Once members name form)
    (accepts : ∀ text, form text → Accepts reader text value) :
    Fills name reader none members (some value) := by
  obtain ⟨text, only, formed⟩ := once
  induction members with
  | nil => cases only
  | cons member members ih =>
    by_cases named : member.1 = name
    · rw [List.filter_cons_of_pos (by simpa using named)] at only
      obtain ⟨rfl, none⟩ := List.cons.inj only
      have absent : Absent members name := by simpa [Absent] using none
      exact .named (accepts text formed) (fills_of_absent absent _)
    · rw [List.filter_cons_of_neg (by simpa using named)] at only
      exact .other named (ih only)

/-- A record of two fields, each filled by its own members. -/
theorem selects_of_fills {select : σ → String → Except Fault (Reader σ)} (make : Option α → Option β → σ)
    {first second : String} {left : Reader α} {right : Reader β} (distinct : first ≠ second)
    (selectFirst : ∀ b, select (make none b) first = .ok ((fun value => make (some value) b) <$> left))
    (selectSecond : ∀ a, select (make a none) second = .ok ((fun value => make a (some value)) <$> right))
    (selectOther : ∀ a b name, name ≠ first → name ≠ second →
      select (make a b) name = .ok (ignored (make a b)))
    {a a' : Option α} {b b' : Option β} (filledFirst : Fills first left a members a')
    (filledSecond : Fills second right b members b') (extras : Extras members [first, second]) :
    Selects select (make a b) members (make a' b') := by
  induction members generalizing a b with
  | nil =>
    cases filledFirst
    cases filledSecond
    exact .nil
  | cons member members ih =>
    obtain ⟨extra, others⟩ := List.forall_mem_cons.mp extras
    cases filledFirst with
    | named accepted filledFirst =>
      cases filledSecond with
      | named => exact absurd rfl distinct
      | other _ filledSecond =>
        exact .cons (selectFirst b) (accepts_map accepted _) (ih filledFirst filledSecond others)
    | other notFirst filledFirst =>
      cases filledSecond with
      | named accepted filledSecond =>
        exact .cons (selectSecond a) (accepts_map accepted _) (ih filledFirst filledSecond others)
      | other notSecond filledSecond =>
        have formed := extra (by simp [notFirst, notSecond])
        exact .cons (selectOther a b _ notFirst notSecond) (accepts_ignored formed _)
          (ih filledFirst filledSecond others)

end Fields

section Kinds
variable {kind : Kind} {text : List Char}

private theorem ofName_name (kind : Kind) : Kind.ofName kind.name = .ok kind := by
  rw [Kind.ofName, Kind.ofName?_name]

private theorem run_tag {name : String} {before : List Char} (form : StringText name text) (blanks : Blanks before)
    (rest : List Char) : Kind.tag.run (before ++ (text ++ rest)) = .ok (name, rest) := by
  have taken : key.run (text ++ rest) = .ok (name, rest) := run_key form blanks_nil
  obtain ⟨body, _, rfl⟩ := form
  rw [List.cons_append, Kind.tag, run_bind_of_ok (run_peek_of_blanks blanks rfl _)]
  exact taken

private theorem run_unit {before : List Char} (blanks : Blanks before) (rest : List Char) :
    unit.run (before ++ ("null".toList ++ rest)) = .ok ((), rest) := by
  have null : "null".toList ++ rest = 'n' :: (['u', 'l', 'l'] ++ rest) := rfl
  rw [null, unit, run_bind_of_ok (run_peek_of_blanks blanks rfl _)]
  exact run_word ['u', 'l', 'l'] rest

private theorem behind_tagged (form : ObjectText [(kind.name, "null".toList)] text) :
    Behind '{' Kind.taggedReader text kind := by
  cases form with
  | @object texts _ named form =>
    obtain ⟨item, _, ⟨key, tag, joined⟩, none, rfl⟩ := List.forall₂_cons_left_iff.mp named
    obtain rfl := List.forall₂_nil_left_iff.mp none
    cases joined with
    | @joined colonGap valueGap colonBlanks valueBlanks =>
      cases form with
      | filled separated =>
        cases separated with
        | more _ _ separated => cases separated
        | @last _ before behind blanks blanksToo =>
          refine ⟨_, rfl, fun rest => ?_⟩
          simp only [List.append_assoc, List.cons_append, List.nil_append]
          have closer := run_peek_of_blanks (c := '}') blanksToo rfl rest
          refine (run_bind_of_ok (run_tag tag blanks _) _).trans ?_
          rw [ofName_name]
          refine (run_bind_of_ok (run_ofExcept_ok _ _) _).trans ?_
          refine (run_bind_of_ok (run_colon colonBlanks _) _).trans ?_
          refine (run_bind_of_ok (run_unit valueBlanks _) _).trans ?_
          exact (run_bind_of_ok closer _).trans (run_bind_of_ok (run_discard_next _) _)

private theorem behind_name (form : StringText kind.name text) :
    Behind '"' (string >>= fun name => ofExcept (Kind.ofName name)) text kind := by
  obtain ⟨body, rfl, run⟩ := behind_string form
  refine ⟨body, rfl, fun rest => ?_⟩
  rw [run_bind_of_ok (run rest), ofName_name, run_ofExcept_ok]

private theorem accepts_kind (form : KindText kind text) : Accepts Kind.reader text kind := by
  cases form with
  | name form =>
    exact accepts_of_behind (behind_name form) starts_quote fun _ body blanks =>
      run_bind_of_ok (run_peek_of_blanks blanks rfl body) _
  | tagged form =>
    exact accepts_of_behind (behind_tagged form) (starts_opener .object) fun _ body blanks =>
      run_bind_of_ok (run_peek_of_blanks blanks rfl body) _

end Kinds

section Files
variable {marker : String} {entries : List (String × Kind)} {members : Members} {text : List Char}

private theorem selects_entry {entry : String × Kind} (literal : Once members "literal" (StringText entry.1))
    (kind : Once members "kind" (KindText entry.2)) (extras : Extras members ["literal", "kind"]) :
    Selects entryMember ⟨none, none⟩ members ⟨some entry.1, some entry.2⟩ := by
  refine selects_of_fills PartialEntry.mk (by decide) (fun _ => ?_) (fun _ => ?_)
    (fun _ _ _ notLiteral notKind => ?_) (fills_of_once literal fun _ => accepts_text)
    (fills_of_once kind fun _ => accepts_kind) extras
  · rw [entryMember, if_pos rfl]
    rfl
  · rw [entryMember, if_neg (by decide), if_pos rfl]
    rfl
  · rw [entryMember, if_neg notLiteral, if_neg notKind]

private theorem accepts_entry {entry : String × Kind} (form : EntryText entry text) :
    Accepts TableFile.entry text entry := by
  cases form with
  | list literal kind form =>
    exact (delimits_record_list _ _ (behind_pair form (accepts_text literal) (accepts_kind kind) _ _)).accepts
  | object literal kind extras form =>
    obtain ⟨body, rfl, run⟩ := behind_members form (selects_entry literal kind extras)
    exact (delimits_record_object _ _ ⟨body, rfl, fun rest => run_bind_of_ok (run rest) _⟩).accepts

private theorem accepts_entries (form : EntriesText entries text) : Accepts TableFile.entries text entries := by
  obtain ⟨texts, forms, form⟩ := form
  have taken := behind_items form (forms.imp fun _ _ => accepts_entry)
  exact accepts_of_behind taken (starts_opener .list) fun _ body blanks =>
    run_bind_of_ok (run_peek_of_blanks blanks rfl body) _

private theorem selects_file {comment : Option String}
    (commented : Fills "comment" Reader.text none members comment)
    (symbols : Once members "symbols" (EntriesText entries)) (extras : Extras members ["comment", "symbols"]) :
    Selects fileMember ⟨none, none⟩ members ⟨comment, some entries⟩ := by
  refine selects_of_fills PartialFile.mk (by decide) (fun _ => ?_) (fun _ => ?_)
    (fun _ _ _ notComment notSymbols => ?_) commented (fills_of_once symbols fun _ => accepts_entries) extras
  · rw [fileMember, if_pos rfl]
    rfl
  · rw [fileMember, if_neg (by decide), if_pos rfl]
    rfl
  · rw [fileMember, if_neg notComment, if_neg notSymbols]

private theorem fills_comment (commented : Commented marker members) :
    ∃ comment, Fills "comment" Reader.text none members comment ∧
      comment.getD defaultComment = marker := by
  rcases commented with once | ⟨rfl, absent⟩
  · exact ⟨some marker, fills_of_once once fun _ => accepts_text, rfl⟩
  · exact ⟨none, fills_of_absent absent none, rfl⟩

theorem delimits_file (form : FileText marker entries text) :
    Delimits TableFile.reader text ⟨marker, entries⟩ := by
  cases form with
  | list comment symbols form =>
    obtain ⟨body, rfl, run⟩ :=
      behind_pair form (accepts_text comment) (accepts_entries symbols) fileLength fileLength
    exact delimits_record_list _ _ ⟨body, rfl, fun rest => run_map_of_ok (run rest) _⟩
  | object commented symbols extras form =>
    obtain ⟨comment, fills, rfl⟩ := fills_comment commented
    obtain ⟨body, rfl, run⟩ := behind_members form (selects_file fills symbols extras)
    exact delimits_record_object _ _ ⟨body, rfl, fun rest => run_bind_of_ok (run rest) _⟩

theorem parse_layout {text : String} (layout : Layout marker entries text.toList) :
    TableFile.parse text = .ok ⟨marker, entries⟩ := by
  generalize chars : text.toList = file at layout
  cases layout with
  | layout blanks form blanksToo => exact read_of_accepts (delimits_file form).accepts chars blanks blanksToo

/-- Under every layout a file makes the table that its entries make one after another, or is refused with
the fault of the first entry that breaks a rule. -/
theorem load_layout {text : String} (layout : Layout marker entries text.toList) :
    SymbolTable.load text =
      (do
        let blank ← SymbolTable.empty marker
        entries.foldlM (fun table entry => SymbolTable.finished (table.insert entry.1 entry.2)) blank
        : Except TableFault SymbolTable).mapError .rejected := by
  rw [SymbolTable.load, parse_layout layout]
  rfl

end Files

/-- A file without a marker, with a member that no one asks for, and with each entry in a form of its own. -/
def mixedFile : String :=
  "\x7b \"x\":[0],\"symbols\":[[\"\\u002b\",\x7b\"Add\":null\x7d],\n" ++
    "\x7b\"kind\":\"Minus\",\"literal\":\"\\ud83d\\ude00\"\x7d]\x7d"

private theorem stringText_plus : StringText "+" "\"\\u002b\"".toList := by
  have digits : FourDigits ['0', '0', '2', 'b'] '+'.toNat :=
    .digits (i := 0) (j := 0) (k := 2) (l := 11) (.lower rfl) (.lower rfl) (.lower rfl) (.lower rfl)
  exact ⟨_, .cons (.unit digits) .nil, rfl⟩

private theorem stringText_face : StringText "😀" "\"\\ud83d\\ude00\"".toList := by
  have high : FourDigits ['d', '8', '3', 'd'] 0xD83D :=
    .digits (i := 13) (j := 8) (k := 3) (l := 13) (.lower rfl) (.lower rfl) (.lower rfl) (.lower rfl)
  have low : FourDigits ['d', 'e', '0', '0'] 0xDE00 :=
    .digits (i := 13) (j := 14) (k := 0) (l := 0) (.lower rfl) (.lower rfl) (.lower rfl) (.lower rfl)
  have pair : CharText '😀' _ :=
    .pair high low (by decide) (by decide) (by decide) (by decide) (by decide)
  exact ⟨_, .cons pair .nil, rfl⟩

private theorem layout_mixedFile : Layout "//" [("+", .add), ("😀", .minus)] mixedFile.toList := by
  have none := blanks_nil
  have gap : Blanks [' '] := by simp [Blanks, Text.isBlank]
  have line : Blanks ['\n'] := by simp [Blanks, Text.isBlank]
  have member (name : String) (value : List Char) :
      ∃ key, StringText name key ∧ Joined key value ((quote name).toList ++ ([] ++ ':' :: ([] ++ value))) :=
    ⟨_, stringText_quote name, .joined none none⟩
  have plus : EntryText ("+", .add) _ :=
    .list stringText_plus
      (.tagged (.object (.cons (member _ _) .nil) (.filled (.last none none))))
      (.filled (.more none none (.last none none)))
  have face : EntryText ("😀", .minus) _ :=
    @EntryText.object _ _ [("kind", (quote "Minus").toList), ("literal", "\"\\ud83d\\ude00\"".toList)]
      ⟨_, rfl, stringText_face⟩ ⟨_, rfl, .name (stringText_quote "Minus")⟩
      (by simp [Extras])
      (.object (.cons (member _ _) (.cons (member _ _) .nil)) (.filled (.more none none (.last none none))))
  have entries : EntriesText [("+", .add), ("😀", .minus)] _ :=
    ⟨_, .cons plus (.cons face .nil), .filled (.more none none (.last line none))⟩
  have zero : NumberText _ := .number (List.mem_cons_self : [] ∈ [[], ['-']]) .zero .absent .absent
  have extra : Wellformed _ :=
    .list (List.forall_mem_singleton.mpr (.number zero)) (.filled (.last none none))
  have file : FileText "//" [("+", .add), ("😀", .minus)] _ :=
    @FileText.object _ _ _ [("x", _), ("symbols", _)] (.inr ⟨rfl, by simp [Absent]⟩) ⟨_, rfl, entries⟩
      (by simpa [Extras] using extra)
      (.object (.cons (member _ _) (.cons (member _ _) .nil)) (.filled (.more gap none (.last none none))))
  have layout := Layout.layout none file none
  convert layout using 1
  decide +kernel

theorem load_layout_mixedFile :
    Layout "//" [("+", .add), ("😀", .minus)] mixedFile.toList ∧
      SymbolTable.load mixedFile = .ok ⟨[('+', .add), ('😀', .minus)], [], ('/', '/')⟩ :=
  ⟨layout_mixedFile, (load_layout layout_mixedFile).trans (by decide +kernel)⟩

end CantoScan.Proofs.FileLayout
