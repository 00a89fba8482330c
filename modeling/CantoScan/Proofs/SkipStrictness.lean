import CantoScan.Proofs.JsonSkipping
import CantoScan.Proofs.JsonStrictness

/-! Only what is well formed can be passed over as a value. The brackets that are open where a value ends
say what has to stand behind it, and each step leaves a text that still has to meet what is open then. -/

namespace CantoScan.Proofs.SkipStrictness
open Json Json.Reader JsonGrammar JsonReading JsonSkipping JsonStrictness

section Numbers
variable {text rest : List Char} {atEnd : Fault}

private theorem digits_of_run {run : List Char} (done : (digits atEnd).run text = .ok (run, rest)) :
    text = run ++ rest ∧ Digits run := by
  obtain ⟨found, _, taken, more⟩ := run_bind_eq_ok.mp done
  cases taken
  split at more
  next =>
    obtain ⟨front, _, _, last⟩ := run_bind_eq_ok.mp more
    exact absurd last (fails_ite (fails_fail _) (fails_fail _) _ _)
  next c run front =>
    cases more
    refine ⟨?_, List.cons_ne_nil c run, ?_⟩
    · rw [← front, List.takeWhile_append_dropWhile]
    · rw [← front]
      exact fun _ => List.mem_takeWhile_imp

private theorem oneOf_cases {choices : List Char} {found : Option Char}
    (done : (oneOf choices).run text = .ok (found, rest)) :
    found = none ∧ text = rest ∨ ∃ c ∈ choices, found = some c ∧ text = c :: rest := by
  obtain ⟨front, _, looked, more⟩ := run_bind_eq_ok.mp done
  cases looked
  cases text with
  | nil =>
    cases more
    exact .inl ⟨rfl, rfl⟩
  | cons c text =>
    dsimp only [List.head?_cons] at more
    split at more
    next member =>
      cases more
      exact .inr ⟨c, member, rfl, rfl⟩
    next =>
      cases more
      exact .inl ⟨rfl, rfl⟩

private theorem fractionText_of_run {fraction : List Char}
    (done : (fractionPart atEnd).run text = .ok (fraction, rest)) :
    ∃ read, text = read ++ rest ∧ FractionText read := by
  obtain ⟨point, _, looked, more⟩ := run_bind_eq_ok.mp done
  obtain ⟨rfl, rfl⟩ | ⟨c, member, rfl, rfl⟩ := oneOf_cases looked
  · cases more
    exact ⟨[], rfl, .absent⟩
  · obtain ⟨rfl, form⟩ := digits_of_run more
    obtain rfl := List.mem_singleton.mp member
    exact ⟨'.' :: fraction, rfl, .digits form⟩

private theorem exponentText_of_run {exponent : Option (Bool × List Char)}
    (done : (exponentPart atEnd).run text = .ok (exponent, rest)) :
    ∃ read, text = read ++ rest ∧ ExponentText read := by
  obtain ⟨mark, _, looked, more⟩ := run_bind_eq_ok.mp done
  obtain ⟨rfl, rfl⟩ | ⟨c, member, rfl, rfl⟩ := oneOf_cases looked
  · cases more
    exact ⟨[], rfl, .absent⟩
  · obtain ⟨sign, _, signed, afterSign⟩ := run_bind_eq_ok.mp more
    obtain ⟨run, _, taken, last⟩ := run_bind_eq_ok.mp afterSign
    cases last
    obtain ⟨rfl, form⟩ := digits_of_run taken
    obtain ⟨rfl, rfl⟩ | ⟨d, signMember, rfl, rfl⟩ := oneOf_cases signed
    · exact ⟨c :: ([] ++ run), rfl, .digits member (by simp) form⟩
    · exact ⟨c :: ([d] ++ run), rfl, .digits member (by simpa using signMember) form⟩

/-- Digits that do not begin with a zero in front of others. -/
theorem wholeText_of_plain {run whole : List Char}
    (done : (match run with
      | '0' :: _ :: _ => fail .invalidNumber
      | run => pure run : Reader (List Char)).run text = .ok (whole, rest)) :
    whole = run ∧ text = rest ∧ (Digits run → WholeText run) := by
  split at done
  next => cases done
  next plain =>
    cases done
    refine ⟨rfl, rfl, fun form => ?_⟩
    obtain ⟨c, digits, rfl⟩ := List.exists_cons_of_ne_nil form.1
    by_cases zero : c = '0'
    · subst zero
      cases digits with
      | nil => exact .zero
      | cons d digits => exact (plain d digits rfl).elim
    · exact .digits zero form

private theorem wholeText_of_run {c : Char} {whole : List Char} (starts : startsNumber c = true)
    (done : (wholePart atEnd c).run text = .ok (whole, rest)) :
    ∃ sign ∈ [[], ['-']], ∃ read, text = read ++ rest ∧ c :: read = sign ++ whole ∧ WholeText whole := by
  rw [wholePart] at done
  split at done
  next minus =>
    obtain ⟨run, _, taken, plain⟩ := run_bind_eq_ok.mp done
    obtain ⟨rfl, form⟩ := digits_of_run taken
    obtain ⟨rfl, rfl, formed⟩ := wholeText_of_plain plain
    exact ⟨['-'], by simp, whole, rfl, by simp [minus], formed form⟩
  next other =>
    obtain ⟨run, _, taken, plain⟩ := run_bind_eq_ok.mp done
    obtain ⟨digits, read, rfl⟩ := run_map_eq_ok.mp taken
    cases read
    have digit : c.isDigit = true := by simpa [startsNumber, other] using starts
    have form : Digits (c :: text.takeWhile Char.isDigit) :=
      ⟨List.cons_ne_nil _ _, List.forall_mem_cons.mpr ⟨digit, fun _ => List.mem_takeWhile_imp⟩⟩
    obtain ⟨rfl, rfl, formed⟩ := wholeText_of_plain plain
    exact ⟨[], by simp, _, List.takeWhile_append_dropWhile.symm, rfl, formed form⟩

private theorem takesOnlyBehind_skipNumber {c : Char} (starts : startsNumber c = true) :
    TakesOnlyBehind c (skipNumber c) fun _ text => NumberText text := by
  intro text rest _ done
  obtain ⟨found, read, _⟩ := run_map_eq_ok.mp done
  obtain ⟨whole, _, wholeRun, afterWhole⟩ := run_bind_eq_ok.mp read
  obtain ⟨fraction, _, fractionRun, afterFraction⟩ := run_bind_eq_ok.mp afterWhole
  obtain ⟨exponent, _, exponentRun, last⟩ := run_bind_eq_ok.mp afterFraction
  cases last
  obtain ⟨power, rfl, exponential⟩ := exponentText_of_run exponentRun
  obtain ⟨part, rfl, fractional⟩ := fractionText_of_run fractionRun
  obtain ⟨sign, signed, digits, rfl, front, form⟩ := wholeText_of_run starts wholeRun
  have number : NumberText (sign ++ (whole ++ (part ++ power))) := .number signed form fractional exponential
  rw [← List.append_assoc, ← front] at number
  exact ⟨digits ++ (part ++ power), by simp, number⟩

end Numbers

/-- What may stand between brackets: a value in a list, a key with its value in an object. -/
inductive ItemText : Bracket → List Char → Prop where
  | value {text : List Char} : Wellformed text → ItemText .list text
  | member {key value text : List Char} :
      LooseString key → Wellformed value → Joined key value text → ItemText .object text

/-- What stands behind a value up to the last of the brackets that are open there. -/
inductive Closing : List Bracket → List Char → Prop where
  | nil : Closing [] []
  | cons {bracket : Bracket} {enclosing : List Bracket} {texts : List (List Char)} {text rest : List Char} :
      (∀ item ∈ texts, ItemText bracket item) → Concludes bracket texts text → Closing enclosing rest →
      Closing (bracket :: enclosing) (text ++ rest)

/-- A value and what stands behind it, in front of a rest. -/
def Resumes (enclosing : List Bracket) (text rest : List Char) : Prop :=
  ∃ gap value closing, text = gap ++ (value ++ (closing ++ rest)) ∧ Blanks gap ∧ Wellformed value ∧
    Closing enclosing closing

/-- What is still to come in front of a rest: nothing once no bracket is open. -/
def Pending : List Bracket → List Char → List Char → Prop
  | [], text, rest => text = rest
  | bracket :: enclosing, text, rest => Resumes (bracket :: enclosing) text rest

section Values
variable {bracket : Bracket} {enclosing outer : List Bracket} {text following rest : List Char}

private theorem exists_members {texts : List (List Char)} (formed : ∀ item ∈ texts, ItemText .object item) :
    ∃ members : List (List Char × List Char), (∀ member ∈ members, LooseString member.1) ∧
      (∀ member ∈ members, Wellformed member.2) ∧
      List.Forall₂ (fun member => Joined member.1 member.2) members texts := by
  induction texts with
  | nil => exact ⟨[], by simp, by simp, .nil⟩
  | cons text texts ih =>
    obtain ⟨first, formed⟩ := List.forall_mem_cons.mp formed
    obtain ⟨members, loose, wellformed, joined⟩ := ih formed
    cases first with
    | @member key value _ key' value' joined' =>
      exact ⟨(key, value) :: members, List.forall_mem_cons.mpr ⟨key', loose⟩,
        List.forall_mem_cons.mpr ⟨value', wellformed⟩, .cons joined' joined⟩

private theorem wellformed_of_enclosed {texts : List (List Char)} (formed : ∀ item ∈ texts, ItemText bracket item)
    (enclosed : Enclosed bracket texts text) : Wellformed text := by
  cases bracket with
  | list =>
    refine .list (fun item inside => ?_) enclosed
    cases formed item inside with
    | value form => exact form
  | object =>
    obtain ⟨members, loose, wellformed, joined⟩ := exists_members formed
    exact .object loose wellformed joined enclosed

private theorem exists_of_skipKey (done : skipKey.run text = .ok ((), rest)) :
    ∃ gap key before, text = gap ++ (key ++ (before ++ ':' :: rest)) ∧ Blanks gap ∧ Blanks before ∧
      LooseString key := by
  obtain ⟨gap, c, body, rfl, blanks, more⟩ := exists_of_peek done (fails_fail _)
  dsimp only at more
  split at more
  next quoted =>
    rw [run_bind_of_ok (run_discard_next _), List.tail_cons] at more
    obtain ⟨_, _, skipped, last⟩ := run_bind_eq_ok.mp more
    obtain ⟨read, rfl, loose⟩ := takesOnlyBehind_skipString skipped
    obtain ⟨before, rfl, beforeBlanks⟩ := eq_of_colon last
    exact ⟨gap, '"' :: read, before, by simp [quoted], blanks, beforeBlanks, loose⟩
  next => cases more

private theorem exists_of_nextItem (done : (nextItem bracket enclosing).run text = .ok (outer, following))
    (pending : Pending outer following rest) :
    ∃ gap item closing, text = gap ++ (item ++ (closing ++ rest)) ∧ Blanks gap ∧ ItemText bracket item ∧
      Closing (bracket :: enclosing) closing := by
  -- Only in an object does something stand in front of the value.
  cases bracket with
  | list =>
    cases done
    obtain ⟨gap, value, closing, rfl, blanks, wellformed, closes⟩ := pending
    exact ⟨gap, value, closing, rfl, blanks, .value wellformed, closes⟩
  | object =>
    obtain ⟨_, _, skipped, last⟩ := run_bind_eq_ok.mp done
    cases last
    obtain ⟨behind, value, closing, rfl, behindBlanks, wellformed, closes⟩ := pending
    obtain ⟨gap, key, before, rfl, blanks, beforeBlanks, loose⟩ := exists_of_skipKey skipped
    have joined : Joined key value _ := .joined beforeBlanks behindBlanks
    exact ⟨gap, _, closing, by simp, blanks, .member loose wellformed joined, closes⟩

private theorem closing_of_closeBrackets (done : (closeBrackets enclosing).run text = .ok (outer, following))
    (pending : Pending outer following rest) :
    ∃ closing, text = closing ++ rest ∧ Closing enclosing closing := by
  induction enclosing generalizing text with
  | nil =>
    cases done
    obtain rfl := pending
    exact ⟨[], rfl, .nil⟩
  | cons bracket enclosing ih =>
    obtain ⟨gap, c, body, rfl, blanks, more⟩ := exists_of_peek done (fails_fail _)
    dsimp only at more
    split at more
    next closed =>
      rw [run_bind_of_ok (run_discard_next _), List.tail_cons] at more
      obtain ⟨closing, rfl, closes⟩ := ih more
      exact ⟨gap ++ [bracket.closer] ++ closing, by simp [closed],
        .cons (List.forall_mem_nil _) (concludes_closer blanks) closes⟩
    next =>
      split at more
      -- A comma leaves the bracket open, so an item and what closes the bracket are still to come.
      next comma =>
        rw [run_bind_of_ok (run_discard_next _), List.tail_cons] at more
        obtain ⟨before, item, _, rfl, beforeBlanks, formed, closes⟩ := exists_of_nextItem more pending
        cases closes with
        | cons others concludes closes =>
          exact ⟨_, by simp [comma], .cons (List.forall_mem_cons.mpr ⟨formed, others⟩)
            (concludes_comma blanks beforeBlanks concludes) closes⟩
      next => cases more

private theorem wellformed_of_openBracket
    (done : (openBracket bracket enclosing).run text = .ok (outer, following)) (pending : Pending outer following rest) :
    ∃ body closing, text = body ++ (closing ++ rest) ∧ Wellformed (opener bracket :: body) ∧
      Closing enclosing closing := by
  obtain ⟨gap, c, body, rfl, blanks, more⟩ := exists_of_peek done (fails_fail _)
  dsimp only at more
  split at more
  next closed =>
    rw [run_bind_of_ok (run_discard_next _), List.tail_cons] at more
    obtain ⟨closing, rfl, closes⟩ := closing_of_closeBrackets more pending
    exact ⟨gap ++ [bracket.closer], closing, by simp [closed],
      wellformed_of_enclosed (List.forall_mem_nil _) (.empty blanks), closes⟩
  next =>
    obtain ⟨before, item, _, whole, beforeBlanks, formed, closes⟩ := exists_of_nextItem more pending
    cases closes with
    | cons others concludes closes =>
      have both : Blanks (gap ++ before) := List.forall_mem_append.mpr ⟨blanks, beforeBlanks⟩
      refine ⟨_, _, ?_, wellformed_of_enclosed (List.forall_mem_cons.mpr ⟨formed, others⟩)
        (enclosed_of_concludes concludes both), closes⟩
      simp [whole]

private theorem takesOnlyBehind_word {c : Char} {letters : List Char} (member : c :: letters ∈ wordTexts) :
    TakesOnlyBehind c (word letters) fun _ text => Wellformed text := by
  intro text rest _ done
  exact ⟨letters, eq_of_word done, .word member⟩

private theorem takesOnlyBehind_skipScalar (c : Char) :
    TakesOnlyBehind c (skipScalar c) fun _ text => Wellformed text := by
  intro text rest value done
  rw [skipScalar] at done
  split at done
  next same => exact same ▸ takesOnlyBehind_word (by decide) done
  split at done
  next same => exact same ▸ takesOnlyBehind_word (by decide) done
  split at done
  next same => exact same ▸ takesOnlyBehind_word (by decide) done
  split at done
  next same =>
    obtain ⟨read, whole, loose⟩ := takesOnlyBehind_skipString done
    exact ⟨read, whole, same ▸ .string loose⟩
  split at done
  next starts =>
    obtain ⟨read, whole, form⟩ := takesOnlyBehind_skipNumber starts done
    exact ⟨read, whole, .number form⟩
  next => cases done

private theorem wellformed_of_skipStep {c : Char} (done : (skipStep c enclosing).run text = .ok (outer, following))
    (pending : Pending outer following rest) :
    ∃ body closing, text = body ++ (closing ++ rest) ∧ Wellformed (c :: body) ∧ Closing enclosing closing := by
  rw [skipStep] at done
  split at done
  next same =>
    have found := wellformed_of_openBracket done pending
    exact same ▸ found
  split at done
  next same =>
    have found := wellformed_of_openBracket done pending
    exact same ▸ found
  obtain ⟨_, _, skipped, last⟩ := run_bind_eq_ok.mp done
  obtain ⟨closing, rfl, closes⟩ := closing_of_closeBrackets last pending
  obtain ⟨body, rfl, wellformed⟩ := takesOnlyBehind_skipScalar c skipped
  exact ⟨body, closing, rfl, wellformed, closes⟩

private theorem resumes_of_step {c : Char} {left : List Char} (front : Text.dropBlanks text = c :: left)
    (done : (skipStep c enclosing).run left = .ok (outer, following)) (pending : Pending outer following rest) :
    Resumes enclosing text rest := by
  obtain ⟨body, closing, rfl, wellformed, closes⟩ := wellformed_of_skipStep done pending
  obtain ⟨gap, whole, blanks⟩ := exists_blanks text
  exact ⟨gap, c :: body, closing, by rw [whole, front]; simp, blanks, wellformed, closes⟩

/-- What has been passed over is a value and what closes the brackets around it, by induction on the steps. -/
theorem resumes_of_runSkip (done : runSkip enclosing text = .ok ((), rest)) : Resumes enclosing text rest := by
  fun_induction runSkip enclosing text with
  | case1 => cases done
  | case2 enclosing text c left front following step =>
    cases done
    exact resumes_of_step front step rfl
  | case3 enclosing text c left front bracket outer following step ih =>
    exact resumes_of_step front step (ih done)
  | case4 => cases done

theorem takesOnly_ignored {σ : Type} (state : σ) :
    TakesOnly (ignored state) fun next text => next = state ∧ Wellformed text := by
  intro text rest next done
  obtain ⟨_, _, skipped, last⟩ := run_bind_eq_ok.mp done
  cases last
  obtain ⟨gap, value, _, rfl, blanks, wellformed, closes⟩ := resumes_of_runSkip skipped
  cases closes
  exact ⟨gap, value, rfl, blanks, rfl, wellformed⟩

end Values

end CantoScan.Proofs.SkipStrictness
