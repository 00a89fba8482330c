import CantoScan.Proofs.DigitLists
import CantoScan.Proofs.JsonSkipping

/-! Values made of strings, whole numbers, lists and objects. The grammar says which texts stand for such
a value, the reader takes each of them for it, and the printed form is one of them. -/

namespace CantoScan.Proofs.JsonValues
open Json Json.Reader DigitLists JsonGrammar JsonReading JsonSkipping

/-- A text of a value. There is no whole number in it beyond the largest, and no more than `depth` brackets
are open at once. -/
inductive ValueText (largest : Nat) : Nat → Value → List Char → Prop where
  | string {depth : Nat} {content : String} {text : List Char} :
      StringText content text → ValueText largest depth (.string content) text
  | whole {depth : Nat} {digits : List Char} :
      WholeText digits → Numeral.natValue digits ≤ largest →
      ValueText largest depth (.number (.integer (Numeral.natValue digits))) digits
  | list {depth : Nat} {items : List (Value × List Char)} {text : List Char} :
      (∀ item ∈ items, ValueText largest depth item.1 item.2) →
      Enclosed .list (items.map Prod.snd) text →
      ValueText largest (depth + 1) (.list (items.map Prod.fst)) text
  | object {depth : Nat} {members : List ((String × Value) × List Char)} {texts : List (List Char)}
      {text : List Char} :
      (∀ member ∈ members, ValueText largest depth member.1.2 member.2) →
      List.Forall₂ (fun member text => ∃ key, StringText member.1.1 key ∧ Joined key member.2 text)
        members texts →
      Enclosed .object texts text →
      ValueText largest (depth + 1) (.object (members.map Prod.fst)) text

section Reading
variable {α : Type} {text rest : List Char}

private theorem run_numeral {c : Char} (form : WholeText (c :: text)) (ends : Ends rest) :
    (numeral .endOfValue c).run (text ++ rest) = .ok (⟨false, c :: text, [], none⟩, rest) := by
  have digit : c.isDigit = true := (digits_of_wholeText form).2 c List.mem_cons_self
  have unsigned : c ≠ '-' := by
    rintro rfl
    cases digit
  have whole : (wholePart .endOfValue c).run (text ++ rest) = .ok (c :: text, rest) :=
    run_wholePart_digit form fun d first => (ends_cases ends first).1
  have noPoint : (oneOf ['.']).run rest = .ok (none, rest) :=
    run_oneOf_absent fun d first => by simpa using (ends_cases ends first).2.1
  have noMark : (oneOf ['e', 'E']).run rest = .ok (none, rest) :=
    run_oneOf_absent fun d first => (ends_cases ends first).2.2
  have fraction : (fractionPart .endOfValue).run rest = .ok ([], rest) := run_bind_of_ok noPoint _
  have exponent : (exponentPart .endOfValue).run rest = .ok (none, rest) := run_bind_of_ok noMark _
  rw [numeral, run_bind_of_ok whole, run_bind_of_ok fraction, run_bind_of_ok exponent, run_pure]
  simp [unsigned]

private theorem value_of_fits {digits : List Char} (fits : Numeral.natValue digits ≤ Numeral.maxWhole) :
    (Numeral.mk false digits [] none).value = .ok (.integer (Numeral.natValue digits)) := by
  have kept : (Numeral.mk false digits [] none).integer? = some (Numeral.natValue digits : Int) := by
    simp [Numeral.integer?, Numeral.isWhole, fits]
  rw [Numeral.value, kept]

private theorem ne_of_digit {c other : Char} (digit : c.isDigit = true) (sign : other.isDigit = false) :
    c ≠ other := by
  rintro rfl
  rw [digit] at sign
  cases sign

private theorem isBlank_of_digit {c : Char} (digit : c.isDigit = true) : Text.isBlank c = false := by
  cases blank : Text.isBlank c with
  | false => rfl
  | true => rcases Text.isBlank_iff.mp blank with rfl | rfl | rfl | rfl <;> cases digit

private theorem accepts_whole {depth : Nat} (form : WholeText text)
    (fits : Numeral.natValue text ≤ Numeral.maxWhole) :
    Accepts (Reader.value depth) text (.number (.integer (Numeral.natValue text))) := by
  obtain ⟨filled, digits⟩ := digits_of_wholeText form
  obtain ⟨c, body, rfl⟩ := List.exists_cons_of_ne_nil filled
  have digit : c.isDigit = true := digits c List.mem_cons_self
  have visible := isBlank_of_digit digit
  have starts : Starts (c :: body) :=
    ⟨c, body, rfl, visible, fun bracket => ne_of_digit digit (by cases bracket <;> rfl)⟩
  refine ⟨starts, fun before rest blanks ends => ?_⟩
  have number : (number c).run (body ++ rest) = .ok (.integer (Numeral.natValue (c :: body)), rest) := by
    rw [Reader.number, run_bind_of_ok (run_numeral form ends), value_of_fits fits]
    rfl
  rw [List.cons_append, Reader.value, run_bind_of_ok (run_peek_of_blanks blanks visible _)]
  refine (run_bind_of_ok (run_discard_next _) _).trans ?_
  -- The three words and strings are tried first.
  rw [if_neg (ne_of_digit digit rfl), if_neg (ne_of_digit digit rfl), if_neg (ne_of_digit digit rfl),
    if_neg (ne_of_digit digit rfl), if_pos (by simp [startsNumber, digit])]
  exact run_map_of_ok number Value.number

private theorem accepts_string {depth : Nat} {content : String} (form : StringText content text) :
    Accepts (Reader.value depth) text (.string content) := by
  obtain ⟨body, rfl, run⟩ := behind_string form
  refine accepts_of_behind ⟨body, rfl, fun rest => run_map_of_ok (run rest) Value.string⟩ starts_quote ?_
  intro before body blanks
  rw [Reader.value, run_bind_of_ok (run_peek_of_blanks blanks rfl body)]
  rfl

private theorem accepts_list {depth : Nat} {texts : List (List Char)} {items : List Value}
    (form : Enclosed .list texts text)
    (accepted : List.Forall₂ (fun value text => Accepts (Reader.value depth) text value) items texts) :
    Accepts (Reader.value (depth + 1)) text (.list items) := by
  obtain ⟨body, rfl, run⟩ := behind_items form accepted
  refine accepts_of_behind ⟨body, rfl, fun rest => run_map_of_ok (run rest) Value.list⟩
    (starts_opener .list) fun before body blanks => ?_
  rw [Reader.value, run_bind_of_ok (run_peek_of_blanks blanks rfl body)]
  rfl

private theorem accepts_named {name : String} {key valueText : List Char} {reader : Reader α} {value : α}
    (named : StringText name key) (joined : Joined key valueText text)
    (accepted : Accepts reader valueText value) : Accepts (Reader.member reader) text (name, value) := by
  have taken := (accepts_map accepted (name, ·)).run
  exact accepts_joined named joined taken fun _ rest blanks => run_bind_of_ok (run_colon blanks rest) _

private theorem accepts_object {depth : Nat} {texts : List (List Char)} {members : List (String × Value)}
    (form : Enclosed .object texts text)
    (accepted : List.Forall₂ (fun member text => Accepts (Reader.member (Reader.value depth)) text member)
      members texts) :
    Accepts (Reader.value (depth + 1)) text (.object members) := by
  obtain ⟨body, rfl, run⟩ := behind_enclosed form (takes_pushed accepted #[])
  have taken : Behind '{'
      (enclosed .object (fun found => found.push <$> member (value depth)) #[] >>=
        fun found => (pure (.object found.toList) : Reader Value)) ('{' :: body) (.object members) := by
    refine ⟨body, rfl, fun rest => ?_⟩
    rw [run_bind_of_ok (run rest), run_pure]
    simp
  refine accepts_of_behind taken (starts_opener .object) fun before body blanks => ?_
  rw [Reader.value, run_bind_of_ok (run_peek_of_blanks blanks rfl body)]
  rfl

private theorem accepts_members {reader : Reader α} {members : List ((String × α) × List Char)}
    {texts : List (List Char)}
    (named : List.Forall₂ (fun member text => ∃ key, StringText member.1.1 key ∧ Joined key member.2 text)
      members texts)
    (accepted : ∀ member ∈ members, Accepts reader member.2 member.1.2) :
    List.Forall₂ (fun member text => Accepts (Reader.member reader) text member)
      (members.map Prod.fst) texts := by
  induction named with
  | nil => exact .nil
  | cons named _ ih =>
    obtain ⟨key, named, joined⟩ := named
    obtain ⟨first, accepted⟩ := List.forall_mem_cons.mp accepted
    exact .cons (accepts_named named joined first) (ih accepted)

/-- The reader takes every text of a value for that value, within the depth it allows and as long as whole
numbers are kept exactly. -/
theorem accepts_value {largest depth limit : Nat} {value : Value} (form : ValueText largest depth value text)
    (kept : largest ≤ Numeral.maxWhole) (shallow : depth ≤ limit) :
    Accepts (Reader.value limit) text value := by
  induction form generalizing limit with
  | string form => exact accepts_string form
  | whole form fits => exact accepts_whole form (fits.trans kept)
  | @list depth items text _ form ih =>
    cases limit with
    | zero => cases shallow
    | succ limit =>
      have shallow : depth ≤ limit := Nat.le_of_succ_le_succ shallow
      refine accepts_list form ?_
      rw [List.forall₂_map_left_iff, List.forall₂_map_right_iff, List.forall₂_same]
      exact fun item inside => ih item inside shallow
  | @object depth members texts text _ named form ih =>
    cases limit with
    | zero => cases shallow
    | succ limit =>
      have shallow : depth ≤ limit := Nat.le_of_succ_le_succ shallow
      exact accepts_object form (accepts_members named fun member inside => ih member inside shallow)

theorem parse_valueText {largest depth : Nat} {value : Value} {whole : String} {before behind : List Char}
    (form : ValueText largest depth value text) (kept : largest ≤ Numeral.maxWhole) (shallow : depth ≤ maxDepth)
    (parts : whole.toList = before ++ (text ++ behind)) (blanks : Blanks before) (blanksToo : Blanks behind) :
    Json.parse whole = .ok value :=
  read_of_accepts (accepts_value form kept shallow) parts blanks blanksToo

end Reading

section Printing
variable {largest depth : Nat}

private theorem blanks_newline (depth : Nat) : Blanks (newline depth).toList := by
  have pushed (n : Nat) : Blanks ("\n".pushn ' ' n).toList := by
    induction n with
    | zero => simp [Blanks, String.pushn, Nat.repeat, Text.isBlank]
    | succ n ih =>
      have more : ("\n".pushn ' ' (n + 1)).toList = ("\n".pushn ' ' n).toList ++ [' '] := String.toList_push _
      rw [more]
      exact List.forall_mem_append.mpr ⟨ih, by simp [Text.isBlank]⟩
  exact pushed _

private theorem separated_intercalate {gap behind : List Char} (blanks : Blanks gap) (blanksToo : Blanks behind)
    {texts : List (List Char)} (filled : texts ≠ []) :
    Separated texts (gap ++ ((',' :: gap).intercalate texts ++ behind)) := by
  induction texts with
  | nil => exact absurd rfl filled
  | cons text texts ih =>
    cases texts with
    | nil =>
      rw [List.intercalate_singleton]
      exact .last blanks blanksToo
    | cons next texts =>
      have rest := ih (List.cons_ne_nil next texts)
      have more : Separated (text :: next :: texts) _ := .more blanks blanks_nil rest
      rw [List.intercalate_cons_cons]
      simpa using more

private theorem enclosed_bracketed {bracket : Bracket} {first last : String}
    (opened : first.toList = [opener bracket]) (closed : last.toList = [bracket.closer]) (steps : Nat) (lines : List String) :
    Enclosed bracket (lines.map String.toList) (bracketed first last steps lines).toList := by
  unfold bracketed
  cases lines with
  | nil =>
    have empty : Enclosed bracket [] _ := .empty blanks_nil
    simpa [opened, closed] using empty
  | cons line lines =>
    have separated := separated_intercalate (blanks_newline (steps + 1)) (blanks_newline steps)
      (List.cons_ne_nil line.toList (lines.map String.toList))
    have filled : Enclosed bracket _ _ := .filled separated
    simpa [opened, closed, String.toList_intercalate] using filled

/-- A value whose printed form, set in by any number of steps, is one of its texts. -/
def Printed (largest depth : Nat) (value : Value) : Prop :=
  ∀ steps, ValueText largest depth value (value.indented steps).toList

theorem printed_string (content : String) : Printed largest depth (.string content) :=
  fun _ => .string (stringText_quote content)

private theorem wholeText_toDigits (n : Nat) : WholeText (Nat.toDigits 10 n) := by
  rcases Nat.eq_zero_or_pos n with rfl | positive
  · exact .zero
  · have digit : ∀ c ∈ Nat.toDigits 10 n, c.isDigit = true :=
      fun c => Nat.isDigit_of_mem_toDigits (by decide) (Nat.le_refl 10)
    obtain ⟨c, rest, digits, nonzero⟩ := toDigits_eq_cons (by decide : 1 < 10) positive
    rw [digits] at digit ⊢
    exact .digits nonzero ⟨List.cons_ne_nil c rest, digit⟩

theorem printed_whole {n : Nat} (fits : n ≤ largest) : Printed largest depth (.number (.integer n)) := by
  intro steps
  have value : Numeral.natValue (Nat.toDigits 10 n) = n := Nat.ofDigitChars_ten_toDigits
  have printed : ValueText largest depth _ _ := .whole (wholeText_toDigits n) (value.trans_le fits)
  rw [value] at printed
  have digits : ((Value.number (.integer n)).indented steps).toList = Nat.toDigits 10 n := by
    rw [Value.indented]
    exact Nat.toList_repr
  rwa [digits]

private theorem indentedItems_eq (steps : Nat) (items : List Value) :
    Value.indentedItems steps items = items.map (·.indented steps) := by
  induction items with
  | nil => rfl
  | cons item items ih => rw [Value.indentedItems, ih, List.map_cons]

private theorem indentedMembers_eq (steps : Nat) (members : List (String × Value)) :
    Value.indentedMembers steps members =
      members.map fun member => quote member.1 ++ ": " ++ member.2.indented steps := by
  induction members with
  | nil => rfl
  | cons member members ih => rw [Value.indentedMembers, ih, List.map_cons]

theorem printed_list {items : List Value} (printed : ∀ item ∈ items, Printed largest depth item) :
    Printed largest (depth + 1) (.list items) := by
  intro steps
  let texts := items.map fun item => (item, (item.indented (steps + 1)).toList)
  have inner : ∀ item ∈ texts, ValueText largest depth item.1 item.2 :=
    List.forall_mem_map.mpr fun item inside => printed item inside (steps + 1)
  have enclosed : Enclosed .list _ (bracketed "[" "]" steps (items.map (·.indented (steps + 1)))).toList :=
    enclosed_bracketed rfl rfl steps _
  have form := ValueText.list inner (by simpa [texts, Function.comp_def] using enclosed)
  rw [Value.indented, indentedItems_eq]
  simpa [texts, Function.comp_def] using form

theorem printed_object {members : List (String × Value)}
    (printed : ∀ member ∈ members, Printed largest depth member.2) :
    Printed largest (depth + 1) (.object members) := by
  intro steps
  have gap : Blanks [' '] := by simp [Blanks, Text.isBlank]
  let texts := members.map fun member => (member, (member.2.indented (steps + 1)).toList)
  let lines := members.map fun member => quote member.1 ++ ": " ++ member.2.indented (steps + 1)
  have inner : ∀ member ∈ texts, ValueText largest depth member.1.2 member.2 :=
    List.forall_mem_map.mpr fun member inside => printed member inside (steps + 1)
  have named : List.Forall₂ (fun member text => ∃ key, StringText member.1.1 key ∧ Joined key member.2 text)
      texts (lines.map String.toList) := by
    rw [List.map_map, List.forall₂_map_left_iff, List.forall₂_map_right_iff, List.forall₂_same]
    intro member _
    have joined : Joined (quote member.1).toList (member.2.indented (steps + 1)).toList _ :=
      .joined blanks_nil gap
    exact ⟨_, stringText_quote member.1, by simpa using joined⟩
  have enclosed : Enclosed .object _ (bracketed "\x7b" "\x7d" steps lines).toList :=
    enclosed_bracketed rfl rfl steps lines
  have form := ValueText.object inner named enclosed
  rw [Value.indented, indentedMembers_eq]
  simpa [texts, Function.comp_def] using form

end Printing

end CantoScan.Proofs.JsonValues
