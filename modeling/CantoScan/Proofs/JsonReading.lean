import CantoScan.Json.Record
import CantoScan.Proofs.JsonGrammar
import Mathlib.Data.List.TakeWhile

/-! Reading what the grammar of JSON allows. A reader that accepts a text takes all of it, whatever blanks
stand before it and whatever may stand behind a value. -/

namespace CantoScan.Proofs.JsonReading
open Json Json.Reader JsonGrammar

variable {α β σ : Type}

section Run
variable {text rest : List Char}

theorem run_bind_of_ok {first : Reader α} {value : α} (step : first.run text = .ok (value, rest))
    (second : α → Reader β) : (first >>= second).run text = (second value).run rest := by
  rw [run_bind, step]

theorem run_map_of_ok {reader : Reader α} {value : α} (step : reader.run text = .ok (value, rest))
    (f : α → β) : (f <$> reader).run text = .ok (f value, rest) := by
  change (reader >>= fun value => pure (f value)).run text = _
  rw [run_bind_of_ok step, run_pure]

theorem run_discard_of_ok {reader : Reader α} {value : α} (step : reader.run text = .ok (value, rest)) :
    (discard reader).run text = .ok ((), rest) :=
  run_map_of_ok step fun _ => ()

@[simp] theorem run_discard_next (text : List Char) : (discard next).run text = .ok ((), text.tail) :=
  rfl

@[simp] theorem run_ofExcept_ok (value : α) (text : List Char) :
    (ofExcept (.ok value)).run text = .ok (value, text) :=
  rfl

end Run

theorem dropBlanks_append {before : List Char} (blanks : Blanks before) (text : List Char) :
    Text.dropBlanks (before ++ text) = Text.dropBlanks text :=
  List.dropWhile_append_of_pos blanks

theorem blanks_iff {text : List Char} : Blanks text ↔ Text.dropBlanks text = [] :=
  List.dropWhile_eq_nil_iff.symm

theorem dropBlanks_cons {c : Char} (visible : Text.isBlank c = false) (text : List Char) :
    Text.dropBlanks (c :: text) = c :: text := by
  simp [Text.dropBlanks, visible]

theorem run_peek_of_blanks {before : List Char} (blanks : Blanks before) {c : Char}
    (visible : Text.isBlank c = false) (rest : List Char) :
    peek.run (before ++ c :: rest) = .ok (some c, c :: rest) := by
  rw [run_peek, dropBlanks_append blanks, dropBlanks_cons visible, List.head?_cons]

theorem run_colon {before : List Char} (blanks : Blanks before) (rest : List Char) :
    colon.run (before ++ ':' :: rest) = .ok ((), rest) := by
  rw [colon, run_bind_of_ok (run_peek_of_blanks blanks rfl rest)]
  rfl

theorem run_word (letters rest : List Char) : (word letters).run (letters ++ rest) = .ok ((), rest) := by
  induction letters with
  | nil => rfl
  | cons c letters ih =>
    rw [word, List.cons_append, run_bind_of_ok (run_next _)]
    simpa using ih

/-- What may stand behind a value. -/
def Ends (rest : List Char) : Prop :=
  ∀ c, rest.head? = some c → Text.isBlank c = true ∨ c = ',' ∨ c = ']' ∨ c = '}'

/-- How a value may begin: not with a blank or with the end of what encloses it. -/
def Starts (text : List Char) : Prop :=
  ∃ c body, text = c :: body ∧ Text.isBlank c = false ∧ ∀ bracket : Bracket, c ≠ bracket.closer

/-- A reader takes a text for a value. -/
structure Accepts (reader : Reader α) (text : List Char) (value : α) : Prop where
  starts : Starts text
  run : ∀ before rest, Blanks before → Ends rest →
    reader.run (before ++ (text ++ rest)) = .ok (value, rest)

/-- A reader takes a text for a value, whatever stands behind it. -/
structure Delimits (reader : Reader α) (text : List Char) (value : α) : Prop where
  starts : Starts text
  run : ∀ before rest, Blanks before → reader.run (before ++ (text ++ rest)) = .ok (value, rest)

theorem Delimits.accepts {reader : Reader α} {text : List Char} {value : α}
    (delimits : Delimits reader text value) : Accepts reader text value where
  starts := delimits.starts
  run before rest blanks _ := delimits.run before rest blanks

/-- A reader takes a text for a value once its first character has been taken. -/
def Behind (first : Char) (reader : Reader α) (text : List Char) (value : α) : Prop :=
  ∃ body, text = first :: body ∧ ∀ rest, reader.run (body ++ rest) = .ok (value, rest)

theorem starts_opener (bracket : Bracket) (body : List Char) : Starts (opener bracket :: body) :=
  ⟨_, body, rfl, by cases bracket <;> rfl, fun other => by cases bracket <;> cases other <;> decide⟩

theorem starts_quote (body : List Char) : Starts ('"' :: body) :=
  ⟨'"', body, rfl, rfl, fun bracket => by cases bracket <;> decide⟩

/-- A reader that looks at the first character and leaves the rest to another. -/
theorem delimits_of_behind {reader inner : Reader α} {c : Char} {text : List Char} {value : α}
    (taken : Behind c inner text value) (starts : ∀ body, Starts (c :: body))
    (passes : ∀ before body, Blanks before → reader.run (before ++ c :: body) = inner.run body) :
    Delimits reader text value := by
  obtain ⟨body, rfl, run⟩ := taken
  refine ⟨starts body, fun before rest blanks => ?_⟩
  rw [List.cons_append, passes before _ blanks]
  exact run rest

theorem accepts_of_behind {reader inner : Reader α} {c : Char} {text : List Char} {value : α}
    (taken : Behind c inner text value) (starts : ∀ body, Starts (c :: body))
    (passes : ∀ before body, Blanks before → reader.run (before ++ c :: body) = inner.run body) :
    Accepts reader text value :=
  (delimits_of_behind taken starts passes).accepts

section Escapes
variable {text rest : List Char}

private theorem hexDigit?_of_hexDigit {c : Char} {value : Nat} (digit : HexDigit c value) :
    hexDigit? c = some value := by
  have lower : ∀ i : Fin 16, hexDigit? "0123456789abcdef".toList[i] = some i.val := by decide
  have upper : ∀ i : Fin 16, hexDigit? "0123456789ABCDEF".toList[i] = some i.val := by decide
  cases digit with
  | lower found =>
    obtain ⟨inside, rfl⟩ := List.getElem?_eq_some_iff.mp found
    exact lower ⟨value, inside⟩
  | upper found =>
    obtain ⟨inside, rfl⟩ := List.getElem?_eq_some_iff.mp found
    exact upper ⟨value, inside⟩

private theorem run_hexEscape {value : Nat} (digits : FourDigits text value) (rest : List Char) :
    hexEscape.run (text ++ rest) = .ok (value, rest) := by
  cases digits with
  | @digits a b c d i j k l first second third fourth =>
    have bytes : ¬ byteCount [a, b, c, d] < 4 := by
      have sizes := And.intro a.utf8Size_pos (And.intro b.utf8Size_pos
        (And.intro c.utf8Size_pos d.utf8Size_pos))
      simp only [byteCount, List.foldl_cons, List.foldl_nil]
      omega
    have number : hexValue? [a, b, c, d] = some (16 * (16 * (16 * i + j) + k) + l) := by
      simp [hexValue?, hexDigit?_of_hexDigit first, hexDigit?_of_hexDigit second,
        hexDigit?_of_hexDigit third, hexDigit?_of_hexDigit fourth]
    simp [hexEscape, bytes, number]

private theorem shortEscape?_of_mem {letter c : Char} (member : (letter, c) ∈ shortEscapes) :
    shortEscape? letter = some c := by
  have all : ∀ entry ∈ shortEscapes, shortEscape? entry.1 = some entry.2 := by decide
  exact all _ member

private theorem run_escapeWith_short {letter c : Char} (member : (letter, c) ∈ shortEscapes)
    (unicode : Reader Char) (rest : List Char) :
    (escapeWith unicode).run (letter :: rest) = .ok (c, rest) := by
  rw [escapeWith, run_bind_of_ok (run_next _)]
  simp only [List.head?_cons, shortEscape?_of_mem member]
  rfl

private theorem run_escapeWith_unicode (unicode : Reader Char) (rest : List Char) :
    (escapeWith unicode).run ('u' :: rest) = unicode.run rest :=
  rfl

private theorem run_unicodeEscape_unit {c : Char} (digits : FourDigits text c.toNat) (rest : List Char) :
    unicodeEscape.run (text ++ rest) = .ok (c, rest) := by
  have scalar : c.toNat < 0xD800 ∨ 0xDFFF < c.toNat := by
    rcases c.valid with low | high
    · exact .inl low
    · exact .inr high.1
  have trailing : isTrailingSurrogate c.toNat = false := by
    simp only [isTrailingSurrogate, Bool.and_eq_false_iff, decide_eq_false_iff_not]
    omega
  have leading : isLeadingSurrogate c.toNat = false := by
    simp only [isLeadingSurrogate, Bool.and_eq_false_iff, decide_eq_false_iff_not]
    omega
  rw [unicodeEscape, run_bind_of_ok (run_hexEscape digits rest)]
  simp [trailing, leading]

private theorem run_surrogateMark (mark : Char) (rest : List Char) :
    (surrogateMark mark).run (mark :: rest) = .ok ((), rest) := by
  rw [surrogateMark, run_bind_of_ok (run_next _)]
  simp

private theorem run_unicodeEscape_pair {c : Char} {first second : List Char} {high low : Nat}
    (upper : FourDigits first high) (lower : FourDigits second low) (leading : 0xD800 ≤ high ∧ high < 0xDC00)
    (trailing : 0xDC00 ≤ low ∧ low < 0xE000)
    (meant : c.toNat = 0x10000 + (high - 0xD800) * 0x400 + (low - 0xDC00)) (rest : List Char) :
    unicodeEscape.run (first ++ '\\' :: 'u' :: (second ++ rest)) = .ok (c, rest) := by
  have notTrailing : isTrailingSurrogate high = false := by
    simp only [isTrailingSurrogate, Bool.and_eq_false_iff, decide_eq_false_iff_not]
    omega
  have isLeading : isLeadingSurrogate high = true := by
    simp only [isLeadingSurrogate, Bool.and_eq_true, decide_eq_true_eq]
    omega
  have isTrailing : isTrailingSurrogate low = true := by
    simp only [isTrailingSurrogate, Bool.and_eq_true, decide_eq_true_eq]
    omega
  rw [unicodeEscape, run_bind_of_ok (run_hexEscape upper _)]
  simp only [notTrailing, isLeading, if_true, Bool.false_eq_true, if_false]
  rw [run_bind_of_ok (run_surrogateMark '\\' _), run_bind_of_ok (run_surrogateMark 'u' _),
    run_bind_of_ok (run_hexEscape lower rest)]
  simp [isTrailing, ← meant]

end Escapes

section Strings
variable {escape : Reader Char} {text rest read : List Char} {c : Char}

private theorem runStringBody_raw (other : c ≠ '"') (plain : c ≠ '\\') (printable : 0x20 ≤ c.toNat) :
    runStringBody escape (c :: rest) read = runStringBody escape rest (c :: read) := by
  rw [runStringBody_cons, if_neg other, if_neg plain, if_neg (by omega)]

private theorem runStringBody_escape {behind : List Char} (step : escape.run rest = .ok (c, behind)) :
    runStringBody escape ('\\' :: rest) read = runStringBody escape behind (c :: read) := by
  rw [runStringBody_cons, if_neg (by decide), if_pos rfl, step]

private theorem runStringBody_charText (form : CharText c text) :
    runStringBody Reader.escape (text ++ rest) read = runStringBody Reader.escape rest (c :: read) := by
  cases form with
  | raw other plain printable => exact runStringBody_raw other plain printable
  | short member => exact runStringBody_escape (run_escapeWith_short member _ rest)
  | unit digits => exact runStringBody_escape (run_unicodeEscape_unit digits rest)
  | pair upper lower low high low' high' meant =>
    rw [List.cons_append, List.cons_append, List.append_assoc]
    apply runStringBody_escape
    exact run_unicodeEscape_pair upper lower ⟨low, high⟩ ⟨low', high'⟩ meant rest

private theorem runStringBody_spelled {value : List Char} (spelled : Spelled value text) (rest read : List Char) :
    runStringBody Reader.escape (text ++ '"' :: rest) read = .ok (read.reverse ++ value, rest) := by
  induction spelled generalizing read with
  | nil => rw [List.nil_append, runStringBody_cons, if_pos rfl, List.append_nil]
  | cons form _ ih =>
    rw [List.append_assoc, runStringBody_charText form, ih, List.reverse_cons, List.append_assoc]
    rfl

private theorem runStringBody_looseChar (form : LooseChar text) :
    ∃ c, runStringBody looseEscape (text ++ rest) read = runStringBody looseEscape rest (c :: read) := by
  cases form with
  | raw other plain printable => exact ⟨_, runStringBody_raw other plain printable⟩
  | short member => exact ⟨_, runStringBody_escape (run_escapeWith_short member _ rest)⟩
  | unit digits =>
    rw [List.cons_append, List.cons_append]
    refine ⟨'\uFFFD', runStringBody_escape ?_⟩
    rw [looseEscape, run_escapeWith_unicode,
      run_bind_of_ok (run_discard_of_ok (run_hexEscape digits rest)), run_pure]

private theorem runStringBody_loose {parts : List (List Char)} (loose : ∀ part ∈ parts, LooseChar part)
    (rest read : List Char) :
    ∃ found, runStringBody looseEscape (parts.flatten ++ '"' :: rest) read = .ok (found, rest) := by
  induction parts generalizing read with
  | nil => exact ⟨_, by rw [List.flatten_nil, List.nil_append, runStringBody_cons, if_pos rfl]⟩
  | cons part parts ih =>
    obtain ⟨form, loose⟩ := List.forall_mem_cons.mp loose
    obtain ⟨c, step⟩ := runStringBody_looseChar form
    rw [List.flatten_cons, List.append_assoc, step]
    exact ih loose _

theorem behind_string {value : String} {text : List Char} (form : StringText value text) :
    Behind '"' string text value := by
  obtain ⟨body, spelled, rfl⟩ := form
  refine ⟨_, rfl, fun rest => ?_⟩
  have read : (stringBody Reader.escape).run (body ++ '"' :: rest) = .ok (value.toList, rest) :=
    runStringBody_spelled spelled rest []
  rw [List.append_assoc, List.singleton_append, string, run_map_of_ok read, String.ofList_toList]

theorem behind_skipString {text : List Char} (loose : LooseString text) :
    Behind '"' skipString text () := by
  cases loose with
  | @string parts loose =>
    refine ⟨_, rfl, fun rest => ?_⟩
    obtain ⟨found, step⟩ := runStringBody_loose loose rest []
    have read : (stringBody looseEscape).run (parts.flatten ++ '"' :: rest) = .ok (found, rest) := step
    rw [List.append_assoc]
    exact run_discard_of_ok read

end Strings

section Values
variable {name : String} {text rest : List Char}

private theorem starts_stringText (form : StringText name text) : Starts text := by
  obtain ⟨body, _, rfl⟩ := form
  exact starts_quote _

theorem run_key (form : StringText name text) {before : List Char} (blanks : Blanks before) :
    key.run (before ++ (text ++ rest)) = .ok (name, rest) := by
  obtain ⟨body, rfl, run⟩ := behind_string form
  rw [List.cons_append, key, run_bind_of_ok (run_peek_of_blanks blanks rfl _)]
  exact run rest

/-- A key, a colon and a value, read by a reader that needs the key to find the one for the value. -/
theorem accepts_joined {key' value : List Char} {later : String → Reader α} {reader : Reader α} {given : α}
    (named : StringText name key') (joined : Joined key' value text)
    (taken : ∀ before rest, Blanks before → Ends rest →
      reader.run (before ++ (value ++ rest)) = .ok (given, rest))
    (passes : ∀ before rest, Blanks before →
      (later name).run (before ++ ':' :: rest) = reader.run rest) :
    Accepts (key >>= later) text given := by
  cases joined with
  | @joined before behind blanks blanksToo =>
    constructor
    · obtain ⟨c, body, rfl, first⟩ := starts_stringText named
      exact ⟨c, _, rfl, first⟩
    · intro gap rest blank ends
      rw [List.append_assoc, List.append_assoc, List.cons_append, List.append_assoc,
        run_bind_of_ok (run_key named blank), passes before _ blanks]
      exact taken behind rest blanksToo ends

theorem accepts_text (form : StringText name text) : Accepts Reader.text text name :=
  accepts_of_behind (behind_string form) starts_quote fun _ body blanks =>
    run_bind_of_ok (run_peek_of_blanks blanks rfl body) _

theorem accepts_map {reader : Reader α} {value : α} (accepted : Accepts reader text value) (f : α → β) :
    Accepts (f <$> reader) text (f value) where
  starts := accepted.starts
  run before rest blanks ends := run_map_of_ok (accepted.run before rest blanks ends) f

end Values

theorem ends_separator {gap : List Char} (blanks : Blanks gap) {c : Char}
    (separator : c = ',' ∨ c = ']' ∨ c = '}') (rest : List Char) : Ends (gap ++ c :: rest) := by
  intro d first
  cases gap with
  | nil =>
    obtain rfl := Option.some.inj first
    exact .inr separator
  | cons e gap =>
    obtain rfl := Option.some.inj first
    exact .inl (blanks _ List.mem_cons_self)

theorem ends_closer {gap : List Char} (blanks : Blanks gap) (bracket : Bracket) (rest : List Char) :
    Ends (gap ++ bracket.closer :: rest) :=
  ends_separator blanks (by cases bracket <;> simp [Bracket.closer]) rest

theorem isBlank_closer (bracket : Bracket) : Text.isBlank bracket.closer = false := by
  cases bracket <;> decide

private theorem dropBlanks_of_starts {text before : List Char} (starts : Starts text) (blanks : Blanks before)
    (rest : List Char) : Text.dropBlanks (before ++ (text ++ rest)) = text ++ rest := by
  obtain ⟨c, body, rfl, visible, _⟩ := starts
  rw [dropBlanks_append blanks, List.cons_append, dropBlanks_cons visible]

private theorem run_peek_of_starts {text before : List Char} (starts : Starts text) (blanks : Blanks before)
    (rest : List Char) :
    ∃ c, peek.run (before ++ (text ++ rest)) = .ok (some c, text ++ rest) ∧
      ∀ bracket : Bracket, c ≠ bracket.closer := by
  obtain ⟨c, body, rfl, visible, other⟩ := starts
  exact ⟨c, run_peek_of_blanks blanks visible (body ++ rest), other⟩

theorem Accepts.run_front {reader : Reader α} {text rest : List Char} {value : α}
    (accepted : Accepts reader text value) (ends : Ends rest) :
    reader.run (text ++ rest) = .ok (value, rest) :=
  accepted.run [] rest blanks_nil ends

/-- Items begin where the first of them begins, and not with a closing bracket. -/
theorem run_peek_of_separated {texts : List (List Char)} {inner : List Char}
    (separated : Separated texts inner) (starts : ∀ text ∈ texts, Starts text) (tail : List Char) :
    ∃ c, peek.run (inner ++ tail) = .ok (some c, Text.dropBlanks (inner ++ tail)) ∧
      ∀ bracket : Bracket, c ≠ bracket.closer := by
  cases separated with
  | last blanks _ =>
    have starts := starts _ List.mem_cons_self
    rw [List.append_assoc, List.append_assoc, dropBlanks_of_starts starts blanks]
    exact run_peek_of_starts starts blanks _
  | more blanks _ _ =>
    have starts := starts _ List.mem_cons_self
    rw [List.append_assoc, List.append_assoc, dropBlanks_of_starts starts blanks]
    exact run_peek_of_starts starts blanks _

/-- Items that are taken one after another, each in the state that the one before it has left. -/
inductive Takes (item : σ → Reader σ) : σ → List (List Char) → σ → Prop where
  | nil {state : σ} : Takes item state [] state
  | cons {state next last : σ} {text : List Char} {texts : List (List Char)} :
      Accepts (item state) text next → Takes item next texts last →
      Takes item state (text :: texts) last

section Enclosures
variable {bracket : Bracket} {item : σ → Reader σ} {state last : σ} {texts : List (List Char)}

theorem Takes.starts (taken : Takes item state texts last) : ∀ text ∈ texts, Starts text := by
  induction taken with
  | nil => simp
  | cons accepted _ ih => exact List.forall_mem_cons.mpr ⟨accepted.starts, ih⟩

private theorem run_behindComma {text rest : List Char} {c : Char} (front : peek.run text = .ok (some c, rest))
    (other : c ≠ bracket.closer) (reader : Reader α) :
    (behindComma bracket reader).run text = reader.run rest := by
  rw [behindComma, run_bind_of_ok front]
  simp only [if_neg other]

private theorem run_separated {inner : List Char} (separated : Separated texts inner)
    (taken : Takes item state texts last) (rest : List Char) :
    (item state >>= further bracket item).run (Text.dropBlanks (inner ++ bracket.closer :: rest)) =
      .ok (last, rest) := by
  induction separated generalizing state with
  | @last text before behind blanks blanksToo =>
    cases taken with
    | cons accepted taken =>
      cases taken
      have step := accepted.run_front (ends_closer blanksToo bracket rest)
      rw [List.append_assoc, List.append_assoc, dropBlanks_of_starts accepted.starts blanks,
        run_bind_of_ok step, run_further, dropBlanks_append blanksToo,
        dropBlanks_cons (isBlank_closer bracket)]
      exact if_pos rfl
  | @more text before behind inner texts blanks blanksToo separated ih =>
    cases taken with
    | cons accepted taken =>
      obtain ⟨c, front, other⟩ :=
        run_peek_of_separated separated taken.starts (bracket.closer :: rest)
      have step := accepted.run_front
        (ends_separator blanksToo (.inl rfl) (inner ++ bracket.closer :: rest))
      have comma : ',' ≠ bracket.closer := by cases bracket <;> decide
      rw [List.append_assoc, List.append_assoc, List.append_assoc, List.cons_append,
        dropBlanks_of_starts accepted.starts blanks, run_bind_of_ok step, run_further,
        dropBlanks_append blanksToo, dropBlanks_cons rfl]
      simp only [if_neg comma, if_true]
      rw [run_bind, run_behindComma front (other bracket), ← run_bind]
      exact ih taken

theorem behind_enclosed {text : List Char} (form : Enclosed bracket texts text)
    (taken : Takes item state texts last) :
    Behind (opener bracket) (enclosed bracket item state) text last := by
  cases form with
  | @empty gap blanks =>
    cases taken
    refine ⟨_, rfl, fun rest => ?_⟩
    rw [List.append_assoc, List.singleton_append, enclosed,
      run_bind_of_ok (run_peek_of_blanks blanks (isBlank_closer bracket) rest)]
    simp only [if_true]
    rw [run_bind_of_ok (run_discard_next _), run_pure, List.tail_cons]
  | @filled _ inner separated =>
    refine ⟨_, rfl, fun rest => ?_⟩
    obtain ⟨c, front, other⟩ := run_peek_of_separated separated taken.starts (bracket.closer :: rest)
    rw [List.append_assoc, List.singleton_append, enclosed, run_bind_of_ok front]
    simp only [if_neg (other bracket)]
    exact run_separated separated taken rest

end Enclosures

section Lists
variable {text left right : List Char}

theorem takes_pushed {reader : Reader α} {texts : List (List Char)} {values : List α}
    (accepted : List.Forall₂ (fun value text => Accepts reader text value) values texts) (found : Array α) :
    Takes (fun found => found.push <$> reader) found texts (found ++ values.toArray) := by
  induction accepted generalizing found with
  | nil => simpa using Takes.nil
  | @cons value _ values _ accepted _ ih =>
    have all : found ++ (value :: values).toArray = found.push value ++ values.toArray := by simp
    rw [all]
    exact .cons (accepts_map accepted found.push) (ih (found.push value))

theorem behind_items {reader : Reader α} {texts : List (List Char)} {values : List α}
    (form : Enclosed .list texts text)
    (accepted : List.Forall₂ (fun value text => Accepts reader text value) values texts) :
    Behind '[' (items reader) text values := by
  obtain ⟨body, rfl, run⟩ := behind_enclosed form (takes_pushed accepted #[])
  refine ⟨body, rfl, fun rest => ?_⟩
  rw [items, run_bind_of_ok (run rest), run_pure]
  simp

theorem behind_pair {first : Reader α} {second : Reader β} {a : α} {b : β}
    (form : Enclosed .list [left, right] text) (acceptedLeft : Accepts first left a)
    (acceptedRight : Accepts second right b) (ofNone ofOne : Fault) :
    Behind '[' (pair first second ofNone ofOne) text (a, b) := by
  cases form with
  | filled separated =>
    cases separated with
    | @more _ gap behind _ _ blanks blanksToo separated =>
      cases separated with
      | more _ _ separated => cases separated
      | @last _ gap' behind' blanks' blanksToo' =>
        refine ⟨_, rfl, fun rest => ?_⟩
        simp only [List.append_assoc, List.cons_append, List.nil_append]
        set later := gap' ++ (right ++ (behind' ++ ']' :: rest))
        obtain ⟨c, front, other⟩ := run_peek_of_starts acceptedLeft.starts blanks (behind ++ ',' :: later)
        obtain ⟨d, front', other'⟩ := run_peek_of_starts acceptedRight.starts blanks' (behind' ++ ']' :: rest)
        have filled : c ≠ ']' := other .list
        have takenLeft := acceptedLeft.run_front (ends_separator blanksToo (.inl rfl) later)
        have comma := run_peek_of_blanks (c := ',') blanksToo rfl later
        have takenRight : (behindComma .list second).run later = .ok (b, behind' ++ ']' :: rest) := by
          rw [run_behindComma front' (other' .list)]
          exact acceptedRight.run_front (ends_closer blanksToo' .list rest)
        have closer := run_peek_of_blanks (c := ']') blanksToo' rfl rest
        -- The steps of the reader, each with what it leaves.
        refine (run_bind_of_ok front _).trans ?_
        simp only [if_neg filled]
        refine (run_bind_of_ok takenLeft _).trans ((run_bind_of_ok comma _).trans ?_)
        refine (run_bind_of_ok (run_discard_next _) _).trans ((run_bind_of_ok takenRight _).trans ?_)
        exact (run_bind_of_ok closer _).trans (run_bind_of_ok (run_discard_next _) _)

end Lists

section Records

/-- Members that are taken one after another, each by the reader that its name selects. -/
inductive Selects (select : σ → String → Except Fault (Reader σ)) :
    σ → List (String × List Char) → σ → Prop where
  | nil {state : σ} : Selects select state [] state
  | cons {state next last : σ} {name : String} {value : List Char} {reader : Reader σ}
      {members : List (String × List Char)} :
      select state name = .ok reader → Accepts reader value next → Selects select next members last →
      Selects select state ((name, value) :: members) last

variable {select : σ → String → Except Fault (Reader σ)} {state next last : σ} {text : List Char}

private theorem accepts_member {name : String} {name' value : List Char} {reader : Reader σ}
    (named : StringText name name') (joined : Joined name' value text)
    (selected : select state name = .ok reader) (accepted : Accepts reader value next) :
    Accepts (do
      let value ← ofExcept (select state (← key))
      colon
      value) text next := by
  refine accepts_joined named joined accepted.run fun before rest blanks => ?_
  rw [selected, run_bind_of_ok (run_ofExcept_ok _ _), run_bind_of_ok (run_colon blanks _)]

theorem behind_members {members : List (String × List Char)} (form : ObjectText members text)
    (selected : Selects select state members last) :
    Behind '{' (Reader.members select state) text last := by
  cases form with
  | @object texts text named form =>
    refine behind_enclosed form ?_
    clear form
    induction named generalizing state with
    | nil =>
      cases selected
      exact .nil
    | cons named _ ih =>
      obtain ⟨key, named, joined⟩ := named
      cases selected with
      | cons found accepted selected =>
        exact .cons (accepts_member named joined found accepted) (ih selected)

variable {asList asObject : Reader α} {value : α}

theorem delimits_record_list (name : String) (asObject : Reader α) (taken : Behind '[' asList text value) :
    Delimits (record name asList asObject) text value :=
  delimits_of_behind taken (starts_opener .list) fun _ body blanks =>
    run_bind_of_ok (run_peek_of_blanks blanks rfl body) _

theorem delimits_record_object (name : String) (asList : Reader α) (taken : Behind '{' asObject text value) :
    Delimits (record name asList asObject) text value :=
  delimits_of_behind taken (starts_opener .object) fun _ body blanks =>
    run_bind_of_ok (run_peek_of_blanks blanks rfl body) _

end Records

/-- Nothing but blanks may stand behind what a reader has taken. -/
theorem read_of_run {reader : Reader α} {text : String} {rest : List Char} {value : α}
    (done : reader.run text.toList = .ok (value, rest)) :
    reader.read text = if Text.dropBlanks rest = [] then .ok value else .error .trailingCharacters := by
  rw [Reader.read, document, run_bind_of_ok done, run_bind, endOfText, run_bind_of_ok (run_peek rest)]
  cases Text.dropBlanks rest with
  | nil => rfl
  | cons c behind => rfl

/-- A whole text: one value with blanks around it. -/
theorem read_of_accepts {reader : Reader α} {text : String} {before inner behind : List Char} {value : α}
    (accepted : Accepts reader inner value) (whole : text.toList = before ++ (inner ++ behind))
    (blanks : Blanks before) (blanksToo : Blanks behind) : reader.read text = .ok value := by
  have ends : Ends behind := fun c first => .inl (blanksToo c (List.mem_of_mem_head? first))
  have done : reader.run text.toList = .ok (value, behind) := by
    rw [whole]
    exact accepted.run before behind blanks ends
  rw [read_of_run done, if_pos (blanks_iff.mp blanksToo)]

end CantoScan.Proofs.JsonReading
