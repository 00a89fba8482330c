import CantoScan.Proofs.JsonReading
import CantoScan.Proofs.Utf8Encoding
import Mathlib.Data.List.TakeWhile

/-! Readers take nothing but what the grammar of JSON allows. Whatever a reader takes off a text is a text
of its own form behind blanks, so what it has read can be told apart from what it leaves. -/

namespace CantoScan.Proofs.JsonStrictness
open Json Json.Reader JsonGrammar JsonReading

variable {α β σ : Type}

section Run
variable {text rest : List Char}

theorem run_bind_eq_ok {first : Reader α} {second : α → Reader β} {value : β} :
    (first >>= second).run text = .ok (value, rest) ↔
      ∃ found behind, first.run text = .ok (found, behind) ∧
        (second found).run behind = .ok (value, rest) := by
  rw [run_bind]
  cases first.run text with
  | error fault => simp
  | ok step =>
    obtain ⟨found, behind⟩ := step
    simp

theorem run_map_eq_ok {reader : Reader α} {f : α → β} {value : β} :
    (f <$> reader).run text = .ok (value, rest) ↔
      ∃ found, reader.run text = .ok (found, rest) ∧ f found = value := by
  change (reader >>= fun found => pure (f found)).run text = _ ↔ _
  simp [run_bind_eq_ok]

theorem run_ofExcept_eq_ok {result : Except Fault α} {value : α} :
    (ofExcept result).run text = .ok (value, rest) ↔ result = .ok value ∧ text = rest := by
  cases result with
  | error fault => simp [Reader.ofExcept]
  | ok found => simp

theorem exists_blanks (text : List Char) : ∃ gap, text = gap ++ Text.dropBlanks text ∧ Blanks gap :=
  ⟨_, List.takeWhile_append_dropWhile.symm, fun _ member => List.mem_takeWhile_imp member⟩

/-- A reader that takes no text at all. -/
def Fails (reader : Reader α) : Prop := ∀ text result, reader.run text ≠ .ok result

theorem fails_fail (fault : Fault) : Fails (fail fault : Reader α) := fun _ _ => nofun

private theorem fails_bind {first : Reader α} {second : α → Reader β} (fails : ∀ value, Fails (second value)) :
    Fails (first >>= second) := by
  rintro text ⟨value, rest⟩ done
  obtain ⟨found, behind, _, more⟩ := run_bind_eq_ok.mp done
  exact fails found behind _ more

theorem fails_ite {p : Prop} [Decidable p] {first second : Reader α} (fails : Fails first)
    (failsToo : Fails second) : Fails (if p then first else second) := by
  split
  next => exact fails
  next => exact failsToo

/-- A reader that fails at the end of a text has seen a character that is not blank. -/
theorem exists_of_peek {later : Option Char → Reader α} {value : α}
    (done : (peek >>= later).run text = .ok (value, rest)) (ended : Fails (later none)) :
    ∃ gap c body, text = gap ++ c :: body ∧ Blanks gap ∧
      (later (some c)).run (c :: body) = .ok (value, rest) := by
  obtain ⟨gap, whole, blanks⟩ := exists_blanks text
  rw [run_bind_of_ok (run_peek text)] at done
  cases front : Text.dropBlanks text with
  | nil =>
    rw [front] at done
    exact absurd done (ended _ _)
  | cons c body =>
    rw [front] at done whole
    exact ⟨gap, c, body, whole, blanks, done⟩

private theorem exists_of_next {later : Option Char → Reader α} {value : α}
    (done : (next >>= later).run text = .ok (value, rest)) (ended : Fails (later none)) :
    ∃ c body, text = c :: body ∧ (later (some c)).run body = .ok (value, rest) := by
  cases text with
  | nil => exact absurd done (ended _ _)
  | cons c body => exact ⟨c, body, rfl, done⟩

theorem eq_of_word {letters : List Char} (done : (word letters).run text = .ok ((), rest)) :
    text = letters ++ rest := by
  induction letters generalizing text with
  | nil =>
    cases done
    rfl
  | cons letter letters ih =>
    obtain ⟨c, body, rfl, more⟩ := exists_of_next done (fails_fail _)
    dsimp only at more
    split at more
    next same => rw [same, ih more, List.cons_append]
    next => cases more

theorem eq_of_colon (done : colon.run text = .ok ((), rest)) :
    ∃ gap, text = gap ++ ':' :: rest ∧ Blanks gap := by
  obtain ⟨gap, c, body, rfl, blanks, more⟩ := exists_of_peek done (fails_fail _)
  dsimp only at more
  split at more
  next same =>
    cases more
    exact ⟨gap, by rw [same, List.tail_cons], blanks⟩
  next => cases more

end Run

/-- A reader takes nothing but texts of a form, behind any blanks. -/
def TakesOnly (reader : Reader α) (form : α → List Char → Prop) : Prop :=
  ∀ ⦃text rest : List Char⦄ ⦃value : α⦄, reader.run text = .ok (value, rest) →
    ∃ gap read, text = gap ++ (read ++ rest) ∧ Blanks gap ∧ form value read

/-- The same once the first character of the form has been taken. -/
def TakesOnlyBehind (first : Char) (reader : Reader α) (form : α → List Char → Prop) : Prop :=
  ∀ ⦃text rest : List Char⦄ ⦃value : α⦄, reader.run text = .ok (value, rest) →
    ∃ read, text = read ++ rest ∧ form value (first :: read)

section Escapes
variable {text rest : List Char} {c : Char} {value : Nat}

private theorem hexDigit_of_hexDigit? (found : hexDigit? c = some value) : HexDigit c value := by
  have small : c.toNat < 103 := by
    unfold hexDigit? at found
    split at found
    next digit =>
      exact (Nat.lt_succ_of_le (Char.isDigit_iff_toNat.mp digit).2).trans (by decide)
    next =>
      split at found
      next lower => exact Nat.lt_succ_of_le (Char.le_def.mp lower.2)
      next =>
        split at found
        next upper => exact (Nat.lt_succ_of_le (Char.le_def.mp upper.2)).trans (by decide)
        next => cases found
  have all : ∀ n : Fin 103, ∀ value ∈ hexDigit? (Char.ofNat n),
      "0123456789abcdef".toList[value]? = some (Char.ofNat n) ∨
        "0123456789ABCDEF".toList[value]? = some (Char.ofNat n) := by decide +kernel
  have either := all ⟨c.toNat, small⟩ value
  simp only [Char.ofNat_toNat] at either
  exact (either found).elim .lower .upper

private theorem fourDigits_of_hexValue? {digits : List Char} (found : hexValue? digits = some value)
    (four : digits.length = 4) : FourDigits digits value := by
  match digits, four with
  | [a, b, c, d], _ =>
    simp only [hexValue?, List.foldlM_cons, List.foldlM_nil, Option.bind_eq_bind,
      Option.bind_eq_some_iff, Option.map_eq_some_iff] at found
    obtain ⟨_, ⟨i, first, rfl⟩, _, ⟨j, second, rfl⟩, _, ⟨k, third, rfl⟩, _, ⟨l, fourth, rfl⟩, total⟩ := found
    obtain rfl := Option.some.inj total
    rw [Nat.mul_zero, Nat.zero_add]
    exact .digits (hexDigit_of_hexDigit? first) (hexDigit_of_hexDigit? second)
      (hexDigit_of_hexDigit? third) (hexDigit_of_hexDigit? fourth)

private theorem fourDigits_of_hexEscape (done : hexEscape.run text = .ok (value, rest)) :
    ∃ digits, text = digits ++ rest ∧ FourDigits digits value := by
  simp only [hexEscape] at done
  split at done
  · cases done
  · split at done
    next found four =>
      cases done
      exact ⟨_, (List.take_append_drop 4 text).symm, fourDigits_of_hexValue? found four⟩
    next => cases done

private theorem lt_of_fourDigits {digits : List Char} (form : FourDigits digits value) : value < 0x10000 := by
  have small {c : Char} {value : Nat} (digit : HexDigit c value) : value < 16 := by
    cases digit with
    | lower found => exact (List.getElem?_eq_some_iff.mp found).1
    | upper found => exact (List.getElem?_eq_some_iff.mp found).1
  cases form with
  | digits first second third fourth =>
    have bounds := And.intro (small first) (And.intro (small second) (And.intro (small third) (small fourth)))
    omega

private theorem shortEscapes_of_shortEscape? {letter : Char} (found : shortEscape? letter = some c) :
    (letter, c) ∈ shortEscapes := by
  unfold shortEscape? at found
  split at found
  next itself =>
    obtain rfl := Option.some.inj found
    rcases itself with rfl | rfl | rfl <;> decide
  -- Five letters stand for characters other than themselves.
  iterate 5
    split at found
    next same =>
      obtain rfl := Option.some.inj found
      rw [same]
      decide
  cases found

/-- What stands behind a backslash: a letter, or a number for the given reader. -/
theorem escape_cases {unicode : Reader Char} (done : (escapeWith unicode).run text = .ok (c, rest)) :
    (∃ letter, text = letter :: rest ∧ (letter, c) ∈ shortEscapes) ∨
      ∃ body, text = 'u' :: body ∧ unicode.run body = .ok (c, rest) := by
  obtain ⟨letter, body, rfl, more⟩ := exists_of_next done (fails_fail _)
  dsimp only at more
  split at more
  next meant found =>
    cases more
    exact .inl ⟨letter, rfl, shortEscapes_of_shortEscape? found⟩
  next =>
    split at more
    next same => exact .inr ⟨body, by rw [same], more⟩
    next => cases more

private theorem eq_of_surrogateMark {mark : Char} (done : (surrogateMark mark).run text = .ok ((), rest)) :
    text = mark :: rest := by
  obtain ⟨c, body, rfl, more⟩ := exists_of_next done (fails_fail _)
  dsimp only at more
  split at more
  next same =>
    cases more
    rw [same]
  next => cases more

private theorem charText_unit {digits : List Char} (form : FourDigits digits value)
    (notTrailing : isTrailingSurrogate value = false) (notLeading : isLeadingSurrogate value = false) :
    CharText (Char.ofNat value) ('\\' :: 'u' :: digits) := by
  have bound := lt_of_fourDigits form
  have valid : value.isValidChar := by
    simp only [isTrailingSurrogate, isLeadingSurrogate, Bool.and_eq_false_iff,
      decide_eq_false_iff_not] at notTrailing notLeading
    unfold Nat.isValidChar
    omega
  refine .unit ?_
  rwa [Utf8Encoding.toNat_ofNat valid]

private theorem charText_pair {first second : List Char} {high low : Nat} (upper : FourDigits first high)
    (lower : FourDigits second low) (leading : isLeadingSurrogate high = true)
    (trailing : isTrailingSurrogate low = true) :
    CharText (Char.ofNat (0x10000 + (high - 0xD800) * 0x400 + (low - 0xDC00)))
      ('\\' :: 'u' :: (first ++ '\\' :: 'u' :: second)) := by
  simp only [isLeadingSurrogate, isTrailingSurrogate, Bool.and_eq_true, decide_eq_true_eq] at leading trailing
  have valid : (0x10000 + (high - 0xD800) * 0x400 + (low - 0xDC00)).isValidChar := by
    unfold Nat.isValidChar
    omega
  exact .pair upper lower leading.1 (by omega) trailing.1 (by omega) (Utf8Encoding.toNat_ofNat valid)

private theorem charText_of_unicodeEscape (done : unicodeEscape.run text = .ok (c, rest)) :
    ∃ read, text = read ++ rest ∧ CharText c ('\\' :: 'u' :: read) := by
  obtain ⟨unit, behind, number, more⟩ := run_bind_eq_ok.mp done
  obtain ⟨first, rfl, upper⟩ := fourDigits_of_hexEscape number
  split at more
  · cases more
  next notTrailing =>
    split at more
    next leading =>
      obtain ⟨_, _, mark, afterMark⟩ := run_bind_eq_ok.mp more
      obtain ⟨_, _, mark', afterMarks⟩ := run_bind_eq_ok.mp afterMark
      obtain ⟨unit', _, number', last⟩ := run_bind_eq_ok.mp afterMarks
      obtain rfl := eq_of_surrogateMark mark
      obtain rfl := eq_of_surrogateMark mark'
      obtain ⟨second, rfl, lower⟩ := fourDigits_of_hexEscape number'
      split at last
      next trailing =>
        rw [run_pure] at last
        obtain ⟨rfl, rfl⟩ := Prod.mk.inj (Except.ok.inj last)
        exact ⟨first ++ '\\' :: 'u' :: second, by simp, charText_pair upper lower leading trailing⟩
      next => cases last
    next notLeading =>
      cases more
      exact ⟨first, rfl, charText_unit upper (Bool.eq_false_iff.mpr notTrailing)
        (Bool.eq_false_iff.mpr notLeading)⟩

end Escapes

section Strings
variable {text rest : List Char}

/-- A string ends at its first quotation mark that no backslash stands before. -/
theorem exists_of_runStringBody {escape : Reader Char} {form : Char → List Char → Prop}
    {read found : List Char} (raw : ∀ c, c ≠ '"' → c ≠ '\\' → 0x20 ≤ c.toNat → form c [c])
    (escaped : TakesOnlyBehind '\\' escape form)
    (done : runStringBody escape text read = .ok (found, rest)) :
    ∃ parts : List (Char × List Char), text = (parts.map Prod.snd).flatten ++ '"' :: rest ∧
      found = read.reverse ++ parts.map Prod.fst ∧ ∀ part ∈ parts, form part.1 part.2 := by
  fun_induction runStringBody escape text read with
  | case1 => cases done
  | case2 =>
    cases done
    exact ⟨[], rfl, (List.append_nil _).symm, List.forall_mem_nil _⟩
  | case3 read left meant following step _ ih =>
    obtain ⟨parts, rfl, rfl, formed⟩ := ih done
    obtain ⟨part, rfl, form⟩ := escaped step
    exact ⟨(meant, '\\' :: part) :: parts, by simp, by simp, List.forall_mem_cons.mpr ⟨form, formed⟩⟩
  | case4 => cases done
  | case5 => cases done
  | case6 read c left other plain printable ih =>
    obtain ⟨parts, rfl, rfl, formed⟩ := ih done
    have form := raw c other plain (by omega)
    exact ⟨(c, [c]) :: parts, by simp, by simp, List.forall_mem_cons.mpr ⟨form, formed⟩⟩

private theorem takesOnlyBehind_escape : TakesOnlyBehind '\\' Reader.escape CharText := by
  intro text rest c done
  obtain ⟨letter, rfl, member⟩ | ⟨body, rfl, more⟩ := escape_cases done
  · exact ⟨[letter], rfl, .short member⟩
  · obtain ⟨read, rfl, form⟩ := charText_of_unicodeEscape more
    exact ⟨'u' :: read, rfl, form⟩

private theorem takesOnlyBehind_looseEscape : TakesOnlyBehind '\\' looseEscape fun _ text => LooseChar text := by
  intro text rest c done
  obtain ⟨letter, rfl, member⟩ | ⟨body, rfl, more⟩ := escape_cases done
  · exact ⟨[letter], rfl, .short member⟩
  · obtain ⟨_, _, passed, last⟩ := run_bind_eq_ok.mp more
    obtain ⟨_, number, _⟩ := run_map_eq_ok.mp passed
    obtain ⟨digits, rfl, form⟩ := fourDigits_of_hexEscape number
    cases last
    exact ⟨'u' :: digits, rfl, .unit form⟩

private theorem spelled_of_parts {parts : List (Char × List Char)}
    (formed : ∀ part ∈ parts, CharText part.1 part.2) :
    Spelled (parts.map Prod.fst) (parts.map Prod.snd).flatten := by
  induction parts with
  | nil => exact .nil
  | cons part parts ih =>
    obtain ⟨form, formed⟩ := List.forall_mem_cons.mp formed
    exact .cons form (ih formed)

theorem takesOnlyBehind_string : TakesOnlyBehind '"' string StringText := by
  intro text rest value done
  obtain ⟨found, read, rfl⟩ := run_map_eq_ok.mp done
  obtain ⟨parts, rfl, rfl, formed⟩ := exists_of_runStringBody (fun _ => .raw) takesOnlyBehind_escape read
  exact ⟨(parts.map Prod.snd).flatten ++ ['"'], by simp, _, by simpa using spelled_of_parts formed, rfl⟩

theorem takesOnlyBehind_skipString : TakesOnlyBehind '"' skipString fun _ text => LooseString text := by
  intro text rest value done
  obtain ⟨found, read, _⟩ := run_map_eq_ok.mp done
  obtain ⟨parts, rfl, _, formed⟩ := exists_of_runStringBody (fun _ => .raw) takesOnlyBehind_looseEscape read
  have loose : ∀ part ∈ parts.map Prod.snd, LooseChar part := List.forall_mem_map.mpr formed
  exact ⟨(parts.map Prod.snd).flatten ++ ['"'], by simp, .string loose⟩

end Strings

section Parts
variable {text rest : List Char}

theorem TakesOnly.weaken {reader : Reader α} {form form' : α → List Char → Prop} (only : TakesOnly reader form)
    (implies : ∀ value text, form value text → form' value text) : TakesOnly reader form' := by
  intro text rest value done
  obtain ⟨gap, read, rfl, blanks, formed⟩ := only done
  exact ⟨gap, read, rfl, blanks, implies value read formed⟩

theorem TakesOnly.map {reader : Reader α} {form : α → List Char → Prop} (only : TakesOnly reader form)
    (f : α → β) : TakesOnly (f <$> reader) fun value text => ∃ found, form found text ∧ value = f found := by
  intro text rest value done
  obtain ⟨found, read, rfl⟩ := run_map_eq_ok.mp done
  obtain ⟨gap, part, rfl, blanks, formed⟩ := only read
  exact ⟨gap, part, rfl, blanks, found, formed, rfl⟩

/-- Blanks in front of a text are blanks in front of the form as well. -/
theorem TakesOnly.behind_blanks {reader : Reader α} {form : α → List Char → Prop} (only : TakesOnly reader form)
    {gap : List Char} {value : α} (blanks : Blanks gap) (done : reader.run text = .ok (value, rest)) :
    ∃ gap' read, gap ++ text = gap' ++ (read ++ rest) ∧ Blanks gap' ∧ form value read := by
  obtain ⟨gap', read, rfl, blanksToo, formed⟩ := only done
  exact ⟨gap ++ gap', read, by rw [List.append_assoc], List.forall_mem_append.mpr ⟨blanks, blanksToo⟩, formed⟩

/-- A reader that looks at the first character and leaves the rest to another. -/
theorem takesOnly_of_behind {first : Char} {inner : Reader α} {form : α → List Char → Prop}
    (only : TakesOnlyBehind first inner form) {gap body : List Char} {value : α} (blanks : Blanks gap)
    (done : inner.run body = .ok (value, rest)) :
    ∃ gap' read, gap ++ first :: body = gap' ++ (read ++ rest) ∧ Blanks gap' ∧ form value read := by
  obtain ⟨read, rfl, formed⟩ := only done
  exact ⟨gap, first :: read, rfl, blanks, formed⟩

theorem takesOnly_key : TakesOnly key StringText := by
  intro text rest name done
  obtain ⟨gap, c, body, rfl, blanks, more⟩ := exists_of_peek done (fails_fail _)
  split at more
  next quoted =>
    obtain rfl := Option.some.inj quoted
    exact takesOnly_of_behind takesOnlyBehind_string blanks more
  next => cases more

private theorem takesOnly_behindComma {bracket : Bracket} {item : Reader α} {form : α → List Char → Prop}
    (only : TakesOnly item form) : TakesOnly (behindComma bracket item) form := by
  intro text rest value done
  obtain ⟨gap, c, body, rfl, blanks, more⟩ := exists_of_peek done (fails_fail _)
  dsimp only at more
  split at more
  next => cases more
  next => exact only.behind_blanks blanks more

end Parts

/-- What stands behind an item between brackets: further items, each behind a comma, and the closing
bracket. -/
def Concludes (bracket : Bracket) (texts : List (List Char)) (text : List Char) : Prop :=
  ∀ before item, Blanks before →
    ∃ inner, Separated (item :: texts) inner ∧ before ++ (item ++ text) = inner ++ [bracket.closer]

/-- Items that follow one another, each in the state that the one before it has left. -/
inductive Gathered {ι : Type} (step : σ → ι → σ → Prop) : σ → List ι → σ → Prop where
  | nil {state : σ} : Gathered step state [] state
  | cons {state next last : σ} {item : ι} {items : List ι} :
      step state item next → Gathered step next items last → Gathered step state (item :: items) last

section Enclosures
variable {bracket : Bracket} {texts : List (List Char)} {text rest gap before item : List Char}

theorem concludes_closer (blanks : Blanks gap) : Concludes bracket [] (gap ++ [bracket.closer]) :=
  fun before item blanks' => ⟨before ++ (item ++ gap), .last blanks' blanks, by simp⟩

theorem concludes_comma (blanks : Blanks gap) (blanksToo : Blanks before)
    (concludes : Concludes bracket texts text) :
    Concludes bracket (item :: texts) (gap ++ ',' :: (before ++ (item ++ text))) := by
  intro front first blanks'
  obtain ⟨inner, separated, whole⟩ := concludes before item blanksToo
  refine ⟨_, .more blanks' blanks separated, ?_⟩
  rw [whole]
  simp

theorem enclosed_of_concludes (concludes : Concludes bracket texts text) (blanks : Blanks before) :
    Enclosed bracket (item :: texts) (opener bracket :: (before ++ (item ++ text))) := by
  obtain ⟨inner, separated, whole⟩ := concludes before item blanks
  rw [whole]
  exact .filled separated

variable {step : σ → List Char → σ → Prop} {each : σ → Reader σ} {state last : σ}

private theorem gathered_of_further (only : ∀ state, TakesOnly (each state) fun next text => step state text next)
    (done : (further bracket each state).run text = .ok (last, rest)) :
    ∃ texts read, text = read ++ rest ∧ Concludes bracket texts read ∧ Gathered step state texts last := by
  change runFurther bracket each state text = _ at done
  -- Along the items: each leaves the text in which the next one, or the closing bracket, is found.
  fun_induction runFurther bracket each state text with
  | case1 => cases done
  | case2 state text left front =>
    cases done
    obtain ⟨gap, whole, blanks⟩ := exists_blanks text
    rw [front] at whole
    exact ⟨[], gap ++ [bracket.closer], by simp [whole], concludes_closer blanks, .nil⟩
  | case3 state text left next following taken front other ih =>
    obtain ⟨gap, whole, blanks⟩ := exists_blanks text
    obtain ⟨before, item, rfl, blanksToo, formed⟩ := takesOnly_behindComma (only state) taken
    obtain ⟨texts, read, rfl, concludes, gathered⟩ := ih done
    rw [front] at whole
    exact ⟨item :: texts, _, by simp [whole], concludes_comma blanks blanksToo concludes, .cons formed gathered⟩
  | case4 => cases done
  | case5 => cases done

private theorem takesOnlyBehind_enclosed
    (only : ∀ state, TakesOnly (each state) fun next text => step state text next) :
    TakesOnlyBehind (opener bracket) (enclosed bracket each state) fun last text =>
      ∃ texts, Enclosed bracket texts text ∧ Gathered step state texts last := by
  intro text rest last done
  obtain ⟨gap, c, body, rfl, blanks, more⟩ := exists_of_peek done (fails_fail _)
  dsimp only at more
  split at more
  next closed =>
    cases more
    exact ⟨gap ++ [bracket.closer], by simp [closed], [], .empty blanks, .nil⟩
  next =>
    obtain ⟨next, behind, taken, further⟩ := run_bind_eq_ok.mp more
    obtain ⟨before, item, whole, blanksToo, formed⟩ := (only state).behind_blanks blanks taken
    obtain ⟨texts, read, rfl, concludes, gathered⟩ := gathered_of_further only further
    exact ⟨before ++ (item ++ read), by simp [whole], item :: texts, enclosed_of_concludes concludes blanksToo,
      .cons formed gathered⟩

end Enclosures

section Lists
variable {text rest : List Char}

/-- Items whose texts are told apart from what they do. -/
theorem Gathered.exists_items {ι : Type} {form : ι → List Char → Prop} {step : σ → ι → σ → Prop}
    {state last : σ} {texts : List (List Char)}
    (gathered : Gathered (fun state text next => ∃ item, form item text ∧ step state item next)
      state texts last) :
    ∃ items, List.Forall₂ form items texts ∧ Gathered step state items last := by
  induction gathered with
  | nil => exact ⟨[], .nil, .nil⟩
  | cons formed _ ih =>
    obtain ⟨item, formed, stepped⟩ := formed
    obtain ⟨items, forms, gathered⟩ := ih
    exact ⟨item :: items, .cons formed forms, .cons stepped gathered⟩

private theorem eq_append_of_gathered {start last : Array α} {values : List α}
    (gathered : Gathered (fun found value next => next = found.push value) start values last) :
    last = start ++ values.toArray := by
  induction gathered with
  | nil => simp
  | cons pushed _ ih =>
    rw [ih, pushed]
    simp

theorem takesOnlyBehind_items {reader : Reader α} {form : α → List Char → Prop} (only : TakesOnly reader form) :
    TakesOnlyBehind '[' (items reader) fun values text =>
      ∃ texts, List.Forall₂ form values texts ∧ Enclosed .list texts text := by
  intro text rest values done
  obtain ⟨found, _, taken, last⟩ := run_bind_eq_ok.mp done
  cases last
  obtain ⟨read, rfl, texts, enclosed, gathered⟩ :=
    takesOnlyBehind_enclosed (fun (found : Array α) => only.map found.push) taken
  obtain ⟨values, forms, pushed⟩ := gathered.exists_items
  rw [eq_append_of_gathered pushed]
  exact ⟨read, rfl, texts, by simpa using forms, enclosed⟩

/-- Only the closing bracket may stand behind the last part of a list of fixed length. -/
theorem exists_closer {value found : α} (done : (do
      match ← peek with
      | none => fail .endOfList
      | some c =>
        if c = ']' then
          discard next
          pure value
        else if c = ',' then
          discard next
          if (← peek) = some ']' then fail .trailingComma else fail .trailingCharacters
        else fail .trailingCharacters : Reader α).run text = .ok (found, rest)) :
    ∃ gap, text = gap ++ ']' :: rest ∧ Blanks gap ∧ found = value := by
  obtain ⟨gap, c, body, rfl, blanks, more⟩ := exists_of_peek done (fails_fail _)
  dsimp only at more
  split at more
  next closed =>
    cases more
    exact ⟨gap, by rw [closed, List.tail_cons], blanks, rfl⟩
  next =>
    split at more
    next =>
      have fails (front : Option Char) :
          Fails (if front = some ']' then fail .trailingComma else fail .trailingCharacters : Reader α) :=
        fails_ite (fails_fail _) (fails_fail _)
      exact absurd more (fails_bind (fun _ => fails_bind fails) _ _)
    next => cases more

theorem takesOnlyBehind_pair {first : Reader α} {second : Reader β} {left : α → List Char → Prop}
    {right : β → List Char → Prop} (onlyLeft : TakesOnly first left) (onlyRight : TakesOnly second right)
    (ofNone ofOne : Fault) :
    TakesOnlyBehind '[' (pair first second ofNone ofOne) fun parts text =>
      ∃ leftText rightText, left parts.1 leftText ∧ right parts.2 rightText ∧
        Enclosed .list [leftText, rightText] text := by
  intro text rest parts done
  -- The steps of the reader, each with what it has taken.
  obtain ⟨gap, c, body, rfl, blanks, filled⟩ := exists_of_peek done fun _ _ => nofun
  dsimp only at filled
  split at filled
  next => cases filled
  next =>
    obtain ⟨a, _, takenLeft, behindLeft⟩ := run_bind_eq_ok.mp filled
    obtain ⟨before, leftText, whole, beforeBlanks, formedLeft⟩ := onlyLeft.behind_blanks blanks takenLeft
    obtain ⟨behind, d, _, rfl, behindBlanks, comma⟩ := exists_of_peek behindLeft fun _ _ => nofun
    dsimp only at comma
    split at comma
    next => cases comma
    next =>
      split at comma
      next => cases comma
      next isComma =>
        obtain rfl := not_not.mp isComma
        rw [run_bind_of_ok (run_discard_next _), List.tail_cons] at comma
        obtain ⟨b, _, takenRight, behindRight⟩ := run_bind_eq_ok.mp comma
        obtain ⟨front, rightText, rfl, frontBlanks, formedRight⟩ := takesOnly_behindComma onlyRight takenRight
        obtain ⟨last, rfl, lastBlanks, rfl⟩ := exists_closer behindRight
        have concludes : Concludes .list [rightText] _ :=
          concludes_comma behindBlanks frontBlanks (concludes_closer lastBlanks)
        refine ⟨_, ?_, leftText, rightText, formedLeft, formedRight,
          enclosed_of_concludes concludes beforeBlanks⟩
        simp [whole, Bracket.closer]

end Lists

section Records

theorem fails_mismatch (expected : String) : Fails (mismatch expected : Reader α) := by
  refine fails_bind fun front => ?_
  cases front with
  | none => exact fails_fail _
  | some c =>
    refine fails_bind fun _ => ?_
    iterate 5 refine fails_ite (fails_bind fun _ => fails_fail _) ?_
    exact fails_ite (fails_fail _) (fails_ite (fails_fail _) (fails_fail _))

variable {select : σ → String → Except Fault (Reader σ)} {each : σ → String → σ → List Char → Prop}

/-- A member, read by the reader that its name selects. -/
theorem takesOnly_member (only : ∀ {state name reader}, select state name = .ok reader →
      TakesOnly reader fun next text => each state name next text) (state : σ) :
    TakesOnly (do
      let value ← ofExcept (select state (← key))
      colon
      value) fun next text => ∃ member : String × List Char,
        (∃ key, StringText member.1 key ∧ Joined key member.2 text) ∧ each state member.1 next member.2 := by
  intro text rest next done
  obtain ⟨name, _, named, behindKey⟩ := run_bind_eq_ok.mp done
  obtain ⟨reader, _, selected, behindSelect⟩ := run_bind_eq_ok.mp behindKey
  obtain ⟨_, _, colon, taken⟩ := run_bind_eq_ok.mp behindSelect
  obtain ⟨gap, key, rfl, blanks, spelled⟩ := takesOnly_key named
  obtain ⟨found, rfl⟩ := run_ofExcept_eq_ok.mp selected
  obtain ⟨before, rfl, beforeBlanks⟩ := eq_of_colon colon
  obtain ⟨behind, value, rfl, behindBlanks, formed⟩ := only found taken
  exact ⟨gap, _, by simp, blanks, (name, value), ⟨key, spelled, .joined beforeBlanks behindBlanks⟩, formed⟩

theorem takesOnlyBehind_members (only : ∀ {state name reader}, select state name = .ok reader →
      TakesOnly reader fun next text => each state name next text) {state : σ} :
    TakesOnlyBehind '{' (members select state) fun last text => ∃ members, ObjectText members text ∧
      Gathered (fun state member next => each state member.1 next member.2) state members last := by
  intro text rest last done
  obtain ⟨read, rfl, texts, enclosed, gathered⟩ := takesOnlyBehind_enclosed (takesOnly_member only) done
  obtain ⟨members, named, gathered⟩ := gathered.exists_items
  exact ⟨read, rfl, members, .object named enclosed, gathered⟩

theorem takesOnly_record {asList asObject : Reader α} {form : α → List Char → Prop} (name : String)
    (onlyList : TakesOnlyBehind '[' asList form) (onlyObject : TakesOnlyBehind '{' asObject form) :
    TakesOnly (record name asList asObject) form := by
  intro text rest value done
  obtain ⟨gap, c, body, rfl, blanks, more⟩ := exists_of_peek done (fails_mismatch name)
  split at more
  next opened =>
    obtain rfl := Option.some.inj opened
    exact takesOnly_of_behind onlyList blanks more
  next opened =>
    obtain rfl := Option.some.inj opened
    exact takesOnly_of_behind onlyObject blanks more
  next => exact absurd more (fails_mismatch name _ _)

end Records

section Texts
variable {reader : Reader α} {text : String} {rest : List Char} {value : α}

theorem exists_of_read (read : reader.read text = .ok value) :
    ∃ rest, reader.run text.toList = .ok (value, rest) ∧ Blanks rest := by
  cases done : reader.run text.toList with
  | error fault =>
    rw [Reader.read, document, run_bind, done] at read
    cases read
  | ok step =>
    obtain ⟨found, rest⟩ := step
    rw [read_of_run done] at read
    split at read
    next blanks =>
      cases read
      exact ⟨rest, rfl, blanks_iff.mpr blanks⟩
    next => cases read

end Texts

end CantoScan.Proofs.JsonStrictness
