import CantoScan.Proofs.JsonReading
import Mathlib.Data.List.DropRight

/-! Any value can be passed over, however deep. What is open around a value stays as it is while the
value is passed over, so its parts come one after another at one depth more. -/

namespace CantoScan.Proofs.JsonSkipping
open Json Json.Reader JsonGrammar JsonReading

section Numbers
variable {text rest : List Char} {atEnd : Fault}

theorem ends_cases (ends : Ends rest) {c : Char} (first : c ∈ rest.head?) :
    c.isDigit = false ∧ c ≠ '.' ∧ c ∉ ['e', 'E'] := by
  have enders : c ∈ [' ', '\t', '\r', '\n', ',', ']', '}'] := by
    have cases := ends c first
    rw [Text.isBlank_iff] at cases
    simpa [or_assoc] using cases
  have all : ∀ c ∈ [' ', '\t', '\r', '\n', ',', ']', '}'],
      c.isDigit = false ∧ c ≠ '.' ∧ c ∉ ['e', 'E'] := by simp
  exact all c enders

private theorem run_digitRun (digits : ∀ c ∈ text, c.isDigit = true)
    (after : ∀ c ∈ rest.head?, c.isDigit = false) :
    digitRun.run (text ++ rest) = .ok (text, rest) := by
  have taken : rest.takeWhile Char.isDigit = [] := by
    cases rest with
    | nil => rfl
    | cons c rest => simp [after c rfl]
  have left : rest.dropWhile Char.isDigit = rest := by
    cases rest with
    | nil => rfl
    | cons c rest => simp [after c rfl]
  rw [digitRun]
  simp only [List.takeWhile_append_of_pos digits, List.dropWhile_append_of_pos digits, taken, left,
    List.append_nil]

private theorem run_digits (run : Digits text) (after : ∀ c ∈ rest.head?, c.isDigit = false) :
    (digits atEnd).run (text ++ rest) = .ok (text, rest) := by
  obtain ⟨filled, all⟩ := run
  rw [digits, run_bind_of_ok (run_digitRun all after)]
  cases text with
  | nil => exact absurd rfl filled
  | cons c text => rfl

theorem digits_of_wholeText (form : WholeText text) : Digits text := by
  cases form with
  | zero => exact ⟨by simp, by simp⟩
  | digits _ run => exact run

/-- Only a zero that is followed by another digit is refused. -/
theorem run_plainZero (text rest : List Char) : WholeText text →
    (match text with
      | '0' :: _ :: _ => fail .invalidNumber
      | run => pure run : Reader (List Char)).run rest = .ok (text, rest) := by
  intro form
  cases form with
  | zero => rfl
  | digits nonzero _ =>
    split
    next equal => exact absurd (List.cons.inj equal).1 nonzero
    next => rfl

private theorem run_wholePart_minus (form : WholeText text) (after : ∀ c ∈ rest.head?, c.isDigit = false) :
    (wholePart atEnd '-').run (text ++ rest) = .ok (text, rest) := by
  have run : (digits atEnd).run (text ++ rest) = .ok (text, rest) :=
    run_digits (digits_of_wholeText form) after
  rw [wholePart, if_pos rfl, run_bind_of_ok run]
  exact run_plainZero _ rest form

theorem run_wholePart_digit {c : Char} (form : WholeText (c :: text))
    (after : ∀ c ∈ rest.head?, c.isDigit = false) :
    (wholePart atEnd c).run (text ++ rest) = .ok (c :: text, rest) := by
  obtain ⟨first, later⟩ := List.forall_mem_cons.mp (digits_of_wholeText form).2
  have other : c ≠ '-' := by
    rintro rfl
    cases first
  have run : ((c :: ·) <$> digitRun).run (text ++ rest) = .ok (c :: text, rest) :=
    run_map_of_ok (run_digitRun later after) (c :: ·)
  rw [wholePart, if_neg other, run_bind_of_ok run]
  exact run_plainZero _ rest form

theorem run_oneOf_absent {choices : List Char} (absent : ∀ c ∈ text.head?, c ∉ choices) :
    (oneOf choices).run text = .ok (none, text) := by
  cases text with
  | nil => rfl
  | cons c text =>
    have look : look.run (c :: text) = .ok (some c, c :: text) := rfl
    rw [oneOf, run_bind_of_ok look]
    simp only [if_neg (absent c rfl), run_pure]

private theorem run_oneOf {choices : List Char} {c : Char} (member : c ∈ choices) (text : List Char) :
    (oneOf choices).run (c :: text) = .ok (some c, text) := by
  have look : look.run (c :: text) = .ok (some c, c :: text) := rfl
  rw [oneOf, run_bind_of_ok look]
  simp only [if_pos member, run_next, List.head?_cons, List.tail_cons]

private theorem run_fractionPart (atEnd : Fault) (form : FractionText text)
    (after : ∀ c ∈ rest.head?, c.isDigit = false ∧ c ≠ '.') :
    ∃ found, (fractionPart atEnd).run (text ++ rest) = .ok (found, rest) := by
  cases form with
  | absent =>
    have absent : ∀ c ∈ rest.head?, c ∉ ['.'] := by simpa using fun c first => (after c first).2
    exact ⟨[], run_bind_of_ok (run_oneOf_absent absent) _⟩
  | @digits text run =>
    have read : (digits atEnd).run (text ++ rest) = .ok (text, rest) :=
      run_digits run fun c first => (after c first).1
    exact ⟨text, (run_bind_of_ok (run_oneOf (by decide) _) _).trans read⟩

private theorem run_oneOf_sign {sign : List Char} (signed : sign ∈ [[], ['+'], ['-']]) (run : Digits text)
    (rest : List Char) :
    ∃ found, (oneOf ['+', '-']).run (sign ++ (text ++ rest)) = .ok (found, text ++ rest) := by
  have choices : sign = [] ∨ sign = ['+'] ∨ sign = ['-'] := by simpa using signed
  rcases choices with rfl | rfl | rfl
  · obtain ⟨filled, all⟩ := run
    obtain ⟨c, text, rfl⟩ := List.exists_cons_of_ne_nil filled
    have signs : ∀ c ∈ ['+', '-'], c.isDigit = false := by simp
    have absent : c ∉ ['+', '-'] := fun member => by simpa [signs c member] using all c
    exact ⟨none, run_oneOf_absent (by rintro _ ⟨⟩; exact absent)⟩
  · exact ⟨some '+', run_oneOf (by decide) _⟩
  · exact ⟨some '-', run_oneOf (by decide) _⟩

private theorem run_exponentPart (atEnd : Fault) (form : ExponentText text)
    (after : ∀ c ∈ rest.head?, c.isDigit = false ∧ c ∉ ['e', 'E']) :
    ∃ found, (exponentPart atEnd).run (text ++ rest) = .ok (found, rest) := by
  cases form with
  | absent => exact ⟨none, run_bind_of_ok (run_oneOf_absent fun c first => (after c first).2) _⟩
  | @digits mark sign text marked signed run =>
    have read : (digits atEnd).run (text ++ rest) = .ok (text, rest) :=
      run_digits run fun c first => (after c first).1
    obtain ⟨found, signRead⟩ := run_oneOf_sign signed run rest
    rw [List.cons_append, List.append_assoc]
    refine ⟨some (found = some '-', text), (run_bind_of_ok (run_oneOf marked _) _).trans ?_⟩
    exact (run_bind_of_ok signRead _).trans (run_bind_of_ok read _)

private theorem front_of_exponent (form : ExponentText text) (ends : Ends rest) :
    ∀ c ∈ (text ++ rest).head?, c.isDigit = false ∧ c ≠ '.' := by
  intro c first
  cases form with
  | absent => exact ⟨(ends_cases ends first).1, (ends_cases ends first).2.1⟩
  | digits marked =>
    obtain rfl := Option.some.inj first
    have marks : ∀ mark ∈ ['e', 'E'], mark.isDigit = false ∧ mark ≠ '.' := by simp
    exact marks _ marked

private theorem front_of_fraction (form : FractionText text) (after : ∀ c ∈ rest.head?, c.isDigit = false) :
    ∀ c ∈ (text ++ rest).head?, c.isDigit = false := by
  cases form with
  | absent => exact after
  | digits =>
    intro c first
    obtain rfl := Option.some.inj first
    rfl

private theorem run_skipNumber_of_whole {c : Char} {body whole fraction exponent : List Char}
    (wholeRun : ∀ rest, (∀ c ∈ rest.head?, c.isDigit = false) →
      (wholePart .invalidNumber c).run (body ++ rest) = .ok (whole, rest))
    (fractional : FractionText fraction) (exponential : ExponentText exponent) (ends : Ends rest) :
    (skipNumber c).run (body ++ (fraction ++ (exponent ++ rest))) = .ok ((), rest) := by
  have front := front_of_exponent exponential ends
  have wholeRun := wholeRun _ (front_of_fraction fractional fun c first => (front c first).1)
  obtain ⟨digits, fractionRun⟩ := run_fractionPart .invalidNumber fractional front
  obtain ⟨power, exponentRun⟩ := run_exponentPart .invalidNumber exponential
    fun c first => ⟨(ends_cases ends first).1, (ends_cases ends first).2.2⟩
  have run : (numeral .invalidNumber c).run (body ++ (fraction ++ (exponent ++ rest))) =
      .ok (⟨c = '-', whole, digits, power⟩, rest) := by
    rw [numeral, run_bind_of_ok wholeRun, run_bind_of_ok fractionRun, run_bind_of_ok exponentRun, run_pure]
  exact run_discard_of_ok run

/-- The first character of a number, and the rest of it passed over. -/
theorem run_skipNumber (form : NumberText text) :
    ∃ c body, text = c :: body ∧ startsNumber c = true ∧
      ∀ rest, Ends rest → (skipNumber c).run (body ++ rest) = .ok ((), rest) := by
  cases form with
  | @number sign whole fraction exponent signed wholeForm fractional exponential =>
    have choices : sign = [] ∨ sign = ['-'] := by simpa using signed
    rcases choices with rfl | rfl
    · obtain ⟨filled, all⟩ := digits_of_wholeText wholeForm
      obtain ⟨c, body, rfl⟩ := List.exists_cons_of_ne_nil filled
      refine ⟨c, body ++ (fraction ++ exponent), rfl, by simp [startsNumber, all c], fun rest ends => ?_⟩
      rw [List.append_assoc, List.append_assoc]
      exact run_skipNumber_of_whole (fun _ => run_wholePart_digit wholeForm) fractional exponential ends
    · refine ⟨'-', whole ++ (fraction ++ exponent), rfl, rfl, fun rest ends => ?_⟩
      rw [List.append_assoc, List.append_assoc]
      exact run_skipNumber_of_whole (fun _ => run_wholePart_minus wholeForm) fractional exponential ends

end Numbers

/-- Goes on with what a step has left open. -/
def settle : Except Fault (List Bracket × List Char) → Except Fault (Unit × List Char)
  | .ok ([], rest) => .ok ((), rest)
  | .ok (bracket :: enclosing, rest) => runSkip (bracket :: enclosing) rest
  | .error fault => .error fault

private theorem runSkip_of_front {enclosing : List Bracket} {text rest : List Char} {c : Char}
    (front : Text.dropBlanks text = c :: rest) :
    runSkip enclosing text = settle ((skipStep c enclosing).run rest) := by
  rw [runSkip_eq, front]
  rfl

/-- What comes in front of an item that is passed over: nothing in a list, a key in an object. -/
def nextItem (bracket : Bracket) (enclosing : List Bracket) : Reader (List Bracket) := do
  if bracket = .object then skipKey
  pure (bracket :: enclosing)

section Steps
variable {bracket : Bracket} {enclosing : List Bracket} {gap text rest : List Char}

private theorem run_openBracket_closer (blanks : Blanks gap) :
    (openBracket bracket enclosing).run (gap ++ bracket.closer :: rest) =
      (closeBrackets enclosing).run rest := by
  rw [openBracket, run_bind_of_ok (run_peek_of_blanks blanks (isBlank_closer bracket) rest)]
  simp only [if_true]
  exact run_bind_of_ok (run_discard_next _) _

private theorem run_openBracket_item {c : Char} (front : peek.run text = .ok (some c, rest))
    (other : c ≠ bracket.closer) :
    (openBracket bracket enclosing).run text = (nextItem bracket enclosing).run rest := by
  rw [openBracket, run_bind_of_ok front]
  simp only [if_neg other]
  rfl

private theorem run_closeBrackets_closer (blanks : Blanks gap) :
    (closeBrackets (bracket :: enclosing)).run (gap ++ bracket.closer :: rest) =
      (closeBrackets enclosing).run rest := by
  rw [closeBrackets, run_bind_of_ok (run_peek_of_blanks blanks (isBlank_closer bracket) rest)]
  simp only [if_true]
  exact run_bind_of_ok (run_discard_next _) _

private theorem run_closeBrackets_comma (blanks : Blanks gap) :
    (closeBrackets (bracket :: enclosing)).run (gap ++ ',' :: rest) =
      (nextItem bracket enclosing).run rest := by
  have comma : ',' ≠ bracket.closer := by cases bracket <;> decide
  rw [closeBrackets, run_bind_of_ok (run_peek_of_blanks blanks rfl rest)]
  simp only [if_neg comma, if_true]
  exact run_bind_of_ok (run_discard_next _) _

end Steps

private theorem run_skipKey {key : List Char} (loose : LooseString key) {before behind : List Char}
    (blanks : Blanks before) (blanksToo : Blanks behind) (rest : List Char) :
    skipKey.run (before ++ (key ++ (behind ++ ':' :: rest))) = .ok ((), rest) := by
  obtain ⟨body, rfl, run⟩ := behind_skipString loose
  rw [List.cons_append, skipKey, run_bind_of_ok (run_peek_of_blanks blanks rfl _)]
  simp only [if_true]
  rw [run_bind_of_ok (run_discard_next _), List.tail_cons, run_bind_of_ok (run _)]
  exact run_colon blanksToo rest

/-- Blanks in front of an item make no difference. -/
theorem settle_nextItem_dropBlanks (bracket : Bracket) (enclosing : List Bracket) (text : List Char) :
    settle ((nextItem bracket enclosing).run (Text.dropBlanks text)) =
      settle ((nextItem bracket enclosing).run text) := by
  have again : Text.dropBlanks (Text.dropBlanks text) = Text.dropBlanks text :=
    List.dropWhile_idempotent _ text
  cases bracket with
  | list =>
    change runSkip _ (Text.dropBlanks text) = runSkip _ text
    rw [runSkip_eq, runSkip_eq _ text, again]
  | object =>
    have skipped : skipKey.run (Text.dropBlanks text) = skipKey.run text := by
      rw [skipKey, run_bind, run_bind, run_peek, run_peek, again]
    change settle ((skipKey >>= fun _ => pure (.object :: enclosing)).run (Text.dropBlanks text)) =
      settle ((skipKey >>= fun _ => pure (.object :: enclosing)).run text)
    rw [run_bind, run_bind, skipped]

/-- A text is passed over as a value, and what is open around it stays open. -/
structure Skips (text : List Char) : Prop where
  starts : Starts text
  run : ∀ enclosing before rest, Blanks before → Ends rest →
    runSkip enclosing (before ++ (text ++ rest)) = settle ((closeBrackets enclosing).run rest)

/-- A text is passed over as an item between brackets. -/
structure SkipsItem (bracket : Bracket) (text : List Char) : Prop where
  starts : Starts text
  run : ∀ enclosing before rest, Blanks before → Ends rest →
    settle ((nextItem bracket enclosing).run (before ++ (text ++ rest))) =
      settle ((closeBrackets (bracket :: enclosing)).run rest)

section Values
variable {σ : Type} {bracket : Bracket} {text rest : List Char} {texts : List (List Char)}

theorem Skips.item (skips : Skips text) : SkipsItem .list text where
  starts := skips.starts
  run enclosing := skips.run (.list :: enclosing)

private theorem skipsItem_member {key value : List Char} (loose : LooseString key) (skips : Skips value)
    (joined : Joined key value text) : SkipsItem .object text := by
  cases joined with
  | @joined before behind blanks blanksToo =>
    constructor
    · obtain ⟨body, rfl, _⟩ := behind_skipString loose
      exact starts_quote _
    · intro enclosing gap rest blank ends
      rw [List.append_assoc, List.append_assoc, List.cons_append, List.append_assoc]
      have run : (nextItem .object enclosing).run
          (gap ++ (key ++ (before ++ ':' :: (behind ++ (value ++ rest))))) =
          .ok (.object :: enclosing, behind ++ (value ++ rest)) :=
        run_bind_of_ok (run_skipKey loose blank blanks _) _
      rw [run]
      exact skips.run _ behind rest blanksToo ends

private theorem skipsItem_members {members : List (List Char × List Char)}
    (joined : List.Forall₂ (fun member => Joined member.1 member.2) members texts)
    (loose : ∀ member ∈ members, LooseString member.1) (skips : ∀ member ∈ members, Skips member.2) :
    ∀ text ∈ texts, SkipsItem .object text := by
  induction joined with
  | nil => simp
  | cons joined _ ih =>
    obtain ⟨key, loose⟩ := List.forall_mem_cons.mp loose
    obtain ⟨value, skips⟩ := List.forall_mem_cons.mp skips
    exact List.forall_mem_cons.mpr ⟨skipsItem_member key value joined, ih loose skips⟩

private theorem settle_separated {inner : List Char} (separated : Separated texts inner)
    (skips : ∀ text ∈ texts, SkipsItem bracket text) (enclosing : List Bracket) (rest : List Char) :
    settle ((nextItem bracket enclosing).run (inner ++ bracket.closer :: rest)) =
      settle ((closeBrackets enclosing).run rest) := by
  induction separated with
  | last blanks blanksToo =>
    have skips := skips _ List.mem_cons_self
    rw [List.append_assoc, List.append_assoc,
      skips.run _ _ _ blanks (ends_closer blanksToo bracket rest), run_closeBrackets_closer blanksToo]
  | @more text before behind inner texts blanks blanksToo separated ih =>
    obtain ⟨first, skips⟩ := List.forall_mem_cons.mp skips
    rw [List.append_assoc, List.append_assoc, List.append_assoc, List.cons_append,
      first.run _ _ _ blanks (ends_separator blanksToo (.inl rfl) _), run_closeBrackets_comma blanksToo]
    exact ih skips

private theorem skips_enclosed (form : Enclosed bracket texts text)
    (skips : ∀ text ∈ texts, SkipsItem bracket text) : Skips text := by
  have step (enclosing : List Bracket) (before body : List Char) (blanks : Blanks before) :
      runSkip enclosing (before ++ opener bracket :: body) =
        settle ((openBracket bracket enclosing).run body) := by
    have front : Text.dropBlanks (before ++ opener bracket :: body) = opener bracket :: body := by
      rw [dropBlanks_append blanks, dropBlanks_cons (by cases bracket <;> rfl)]
    rw [runSkip_of_front front]
    cases bracket <;> rfl
  cases form with
  | @empty gap blanksToo =>
    refine ⟨starts_opener bracket _, fun enclosing before rest blanks _ => ?_⟩
    rw [List.cons_append, step _ _ _ blanks, List.append_assoc, List.singleton_append,
      run_openBracket_closer blanksToo]
  | @filled _ inner separated =>
    refine ⟨starts_opener bracket _, fun enclosing before rest blanks _ => ?_⟩
    obtain ⟨c, front, other⟩ := run_peek_of_separated separated (fun text member => (skips text member).starts)
      (bracket.closer :: rest)
    rw [List.cons_append, step _ _ _ blanks, List.append_assoc, List.singleton_append,
      run_openBracket_item front (other bracket), settle_nextItem_dropBlanks]
    exact settle_separated separated skips enclosing rest

/-- A value without parts. -/
theorem skips_scalar {c : Char} {body : List Char} (visible : Text.isBlank c = false)
    (other : ∀ bracket : Bracket, c ≠ opener bracket ∧ c ≠ bracket.closer)
    (run : ∀ rest, Ends rest → (skipScalar c).run (body ++ rest) = .ok ((), rest)) : Skips (c :: body) where
  starts := ⟨c, body, rfl, visible, fun bracket => (other bracket).2⟩
  run enclosing before rest blanks ends := by
    have front : Text.dropBlanks (before ++ c :: (body ++ rest)) = c :: (body ++ rest) := by
      rw [dropBlanks_append blanks, dropBlanks_cons visible]
    have notList : c ≠ '[' := (other .list).1
    have notObject : c ≠ '{' := (other .object).1
    rw [List.cons_append, runSkip_of_front front, skipStep, if_neg notList, if_neg notObject,
      run_bind_of_ok (run rest ends)]

private theorem skips_word (member : text ∈ wordTexts) : Skips text := by
  have choices : text = "null".toList ∨ text = "true".toList ∨ text = "false".toList := by
    simpa [wordTexts] using member
  rcases choices with rfl | rfl | rfl
  · exact skips_scalar rfl (fun bracket => by cases bracket <;> decide) fun rest _ =>
      run_word ['u', 'l', 'l'] rest
  · exact skips_scalar rfl (fun bracket => by cases bracket <;> decide) fun rest _ =>
      run_word ['r', 'u', 'e'] rest
  · exact skips_scalar rfl (fun bracket => by cases bracket <;> decide) fun rest _ =>
      run_word ['a', 'l', 's', 'e'] rest

private theorem skips_string (loose : LooseString text) : Skips text := by
  obtain ⟨body, rfl, run⟩ := behind_skipString loose
  exact skips_scalar rfl (fun bracket => by cases bracket <;> decide) fun rest _ => run rest

private theorem skips_number (form : NumberText text) : Skips text := by
  obtain ⟨c, body, rfl, starts, run⟩ := run_skipNumber form
  have differs (d : Char) (never : startsNumber d = false) : c ≠ d := by
    rintro rfl
    rw [never] at starts
    cases starts
  have visible : Text.isBlank c = false := by
    rw [Bool.eq_false_iff]
    intro blank
    rcases Text.isBlank_iff.mp blank with equal | equal | equal | equal <;> exact differs _ rfl equal
  refine skips_scalar visible (fun bracket => ?_) fun rest ends => ?_
  · exact ⟨differs _ (by cases bracket <;> rfl), differs _ (by cases bracket <;> rfl)⟩
  · rw [skipScalar, if_neg (differs 'n' rfl), if_neg (differs 't' rfl), if_neg (differs 'f' rfl),
      if_neg (differs '"' rfl), if_pos starts]
    exact run rest ends

/-- Every value is passed over, by induction on its form. -/
theorem skips_of_wellformed (form : Wellformed text) : Skips text := by
  induction form with
  | word member => exact skips_word member
  | number form => exact skips_number form
  | string loose => exact skips_string loose
  | list _ form ih => exact skips_enclosed form fun item member => (ih item member).item
  | object loose _ joined form ih => exact skips_enclosed form (skipsItem_members joined loose ih)

theorem accepts_ignored (form : Wellformed text) (state : σ) : Accepts (ignored state) text state where
  starts := (skips_of_wellformed form).starts
  run before rest blanks ends :=
    run_bind_of_ok ((skips_of_wellformed form).run [] before rest blanks ends) _

end Values

end CantoScan.Proofs.JsonSkipping
