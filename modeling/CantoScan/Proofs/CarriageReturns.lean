import CantoScan.Proofs.SessionLines

/-! Lines that end with a carriage return and a line feed, and lines that end with a line feed alone. A
source scans alike in either form: the return is a blank, or it belongs to a comment that goes up to the
line feed, and no column is counted behind it. -/

namespace CantoScan.Proofs.CarriageReturns
open SourceRuns TableRules ScanReading Tiling TokenStream LineBreaks LineCutting SessionLines

/-- Whether a carriage return stands at an offset, right before a line feed. -/
def returnAt (source : List Char) (offset : Nat) : Bool :=
  source[offset]? = some '\r' && source[offset + 1]? = some '\n'

/-- How many such returns stand before an offset. -/
def returnsBefore (source : List Char) (offset : Nat) : Nat := (List.range offset).countP (returnAt source)

/-- A text without its carriage returns before line feeds. -/
def dropReturns : List Char → List Char
  | [] => []
  | c :: rest => if c = '\r' ∧ rest.head? = some '\n' then dropReturns rest else c :: dropReturns rest

def withoutReturns (source : String) : String := String.ofList (dropReturns source.toList)

/-- A token of a source as it is without these returns. Only a comment that ends with one has another
literal then. -/
def unreturned (source : List Char) (token : Token) : Token :=
  let returned := token.kind = .comment ∧ token.literal.toList.getLast? = some '\r' ∧
    source[token.span.stop]? = some '\n'
  { token with
    literal := if returned then String.ofList token.literal.toList.dropLast else token.literal
    span := {
      token.span with
      start := token.span.start - returnsBefore source token.span.start
      stop := token.span.stop - returnsBefore source token.span.stop } }

section Returns
variable {line behind : List Char}

structure Unended (line behind : List Char) : Prop where
  single : '\n' ∉ line
  kept : behind.head? = some '\n' → line.getLast? ≠ some '\r'

theorem Unended.tail {c : Char} (unended : Unended (c :: line) behind) : Unended line behind := by
  refine ⟨fun inside => unended.single (List.mem_cons_of_mem c inside), fun feed last => ?_⟩
  exact unended.kept feed (by rw [List.getLast?_cons, last]; rfl)

private theorem dropReturns_append (unended : Unended line behind) :
    dropReturns (line ++ behind) = line ++ dropReturns behind := by
  induction line with
  | nil => rfl
  | cons c line ih =>
    have stays : ¬ (c = '\r' ∧ (line ++ behind).head? = some '\n') := by
      rintro ⟨rfl, feed⟩
      cases line with
      | nil => exact unended.kept feed rfl
      | cons d line =>
        obtain rfl := Option.some.inj feed
        exact unended.single (by simp)
    rw [List.cons_append, dropReturns, if_neg stays, ih unended.tail, List.cons_append]

private theorem dropReturns_lineFeed (rest : List Char) :
    dropReturns ('\n' :: rest) = '\n' :: dropReturns rest :=
  if_neg (by simp)

private theorem dropReturns_return (rest : List Char) :
    dropReturns ('\r' :: '\n' :: rest) = '\n' :: dropReturns rest := by
  rw [dropReturns, if_pos ⟨rfl, rfl⟩, dropReturns_lineFeed]

private theorem returnAt_append (unended : Unended line behind) {offset : Nat} (inside : offset < line.length) :
    returnAt (line ++ behind) offset = false := by
  apply Bool.eq_false_iff.mpr
  intro returned
  obtain ⟨first, second⟩ : (line ++ behind)[offset]? = some '\r' ∧ (line ++ behind)[offset + 1]? = some '\n' := by
    simpa [returnAt] using returned
  rw [List.getElem?_append_left inside] at first
  by_cases last : offset + 1 < line.length
  · rw [List.getElem?_append_left last] at second
    exact unended.single (List.mem_of_getElem? second)
  · obtain rfl : offset = line.length - 1 := by omega
    rw [List.getElem?_append_right (by omega), show line.length - 1 + 1 - line.length = 0 by omega,
      ← List.head?_eq_getElem?] at second
    exact unended.kept second (List.getLast?_eq_getElem?.trans first)

private theorem returnsBefore_append (unended : Unended line behind) {offset : Nat}
    (inside : offset ≤ line.length) :
    returnsBefore (line ++ behind) offset = 0 := by
  apply List.countP_eq_zero.mpr
  intro index member
  rw [returnAt_append unended (Nat.lt_of_lt_of_le (List.mem_range.mp member) inside)]
  exact Bool.false_ne_true

private theorem returnsBefore_succ (source : List Char) (offset : Nat) :
    returnsBefore source (offset + 1) = returnsBefore source offset + (returnAt source offset).toNat := by
  rw [returnsBefore, List.range_succ, List.countP_append, List.countP_singleton, returnsBefore]
  cases returnAt source offset <;> rfl

private theorem returnsBefore_le (source : List Char) (offset : Nat) : returnsBefore source offset ≤ offset := by
  have all := List.countP_le_length (p := returnAt source) (l := List.range offset)
  rwa [List.length_range] at all

private theorem returnsBefore_add (front rest : List Char) (offset : Nat) :
    returnsBefore (front ++ rest) (front.length + offset) =
      returnsBefore (front ++ rest) front.length + returnsBefore rest offset := by
  have moved : returnAt (front ++ rest) ∘ (front.length + ·) = returnAt rest := by
    funext index
    simp only [Function.comp_apply, returnAt, Nat.add_assoc, getElem?_length_append]
  rw [returnsBefore, List.range_add, List.countP_append, List.countP_map, moved]
  rfl

end Returns

/-- A line before a line feed, and what is left of it without its return. -/
structure Shortens (line kept rest : List Char) : Prop where
  single : '\n' ∉ line ∧ '\n' ∉ kept
  dropped : dropReturns (line ++ '\n' :: rest) = kept ++ '\n' :: dropReturns rest
  length : line.length = kept.length + returnsBefore (line ++ '\n' :: rest) (line.length + 1)

private theorem shortens_ended {line : List Char} (single : '\n' ∉ line) (ending : line.getLast? ≠ some '\r')
    (rest : List Char) : Shortens line line rest := by
  have unended : Unended line ('\n' :: rest) := ⟨single, fun _ => ending⟩
  have feed : returnAt (line ++ '\n' :: rest) line.length = false := by simp [returnAt]
  refine ⟨⟨single, single⟩, ?_, ?_⟩
  · rw [dropReturns_append unended, dropReturns_lineFeed]
  · rw [returnsBefore_succ, returnsBefore_append unended (Nat.le_refl _), feed]
    rfl

private theorem unended_return {line : List Char} (single : '\n' ∉ line) (rest : List Char) :
    Unended line ('\r' :: rest) :=
  ⟨single, fun feed => by cases feed⟩

private theorem returnsBefore_return {line : List Char} (single : '\n' ∉ line) (rest : List Char) :
    returnsBefore (line ++ '\r' :: '\n' :: rest) (line.length + 1) = 1 := by
  have returned : returnAt (line ++ '\r' :: '\n' :: rest) line.length = true := by simp [returnAt]
  rw [returnsBefore_succ, returnsBefore_append (unended_return single _) (Nat.le_refl _), returned]
  rfl

private theorem shortens_returned {line : List Char} (single : '\n' ∉ line) (rest : List Char) :
    Shortens (line ++ ['\r']) line rest := by
  have feed : returnAt (line ++ '\r' :: '\n' :: rest) (line.length + 1) = false := by simp [returnAt]
  refine ⟨⟨by simpa using single, single⟩, ?_, ?_⟩
  · rw [List.append_assoc, List.singleton_append, dropReturns_append (unended_return single _),
      dropReturns_return]
  · rw [List.length_append, List.length_singleton, List.append_assoc, List.singleton_append,
      returnsBefore_succ, returnsBefore_return single, feed]
    rfl

private theorem token_ext {first second : Token} (kind : first.kind = second.kind)
    (literal : first.literal.toList = second.literal.toList) (span : first.span = second.span) :
    first = second := by
  cases first
  cases second
  cases kind
  cases span
  cases String.toList_inj.mp literal
  rfl

private theorem toList_literal_unreturned (source : List Char) (token : Token) :
    (unreturned source token).literal.toList = (retold source token).literal := by
  simp only [unreturned, retold]
  split
  · exact String.toList_ofList
  · rfl

variable {table : SymbolTable}

section Line
variable (sound : Sound table) {line : List Char} {token : Token} (member : token ∈ innerOf table line)
include sound member

private theorem unreturned_of_unended {behind : List Char} (unended : Unended line behind) :
    unreturned (line ++ behind) token = token := by
  have stand := stands_of_mem sound member
  have stop := stand.stop_le_length
  have start : token.span.start ≤ line.length := (Nat.le_of_lt stand.start_lt_stop).trans stop
  refine token_ext rfl ?_ ?_
  · rw [toList_literal_unreturned, retold_kept sound unended.single member unended.kept]
    rfl
  · simp [unreturned, returnsBefore_append unended stop, returnsBefore_append unended start]

/-- A comment loses the return that it has taken in, and nothing else changes on its line. -/
theorem unreturned_withReturn (single : '\n' ∉ line) (rest : List Char) :
    unreturned (line ++ '\r' :: '\n' :: rest) (withReturn token) = token := by
  have unended := unended_return single ('\n' :: rest)
  by_cases comment : token.kind = .comment
  · have stop := stop_of_comment sound single member comment
    have start : token.span.start ≤ line.length :=
      stop ▸ Nat.le_of_lt (stands_of_mem sound member).start_lt_stop
    have span : (withReturn token).span = { token.span with stop := line.length + 1 } := by
      rw [withReturn, if_pos comment, stop]
    refine token_ext ?_ ?_ ?_
    · rw [withReturn, if_pos comment]
      rfl
    · rw [toList_literal_unreturned, retold_withReturn sound single member rest]
      rfl
    · simp only [unreturned, span, returnsBefore_append unended start, returnsBefore_return single,
        Nat.sub_zero, Nat.add_sub_cancel]
      rw [← stop]
  · rw [withReturn_of_ne comment]
    exact unreturned_of_unended sound member unended

end Line

private theorem map_unreturned_of_unended (sound : Sound table) {line behind : List Char}
    (unended : Unended line behind) :
    (innerOf table line).map (unreturned (line ++ behind)) = innerOf table line :=
  (List.map_congr_left fun _ member => unreturned_of_unended sound member unended).trans (List.map_id _)

private theorem map_unreturned_return (sound : Sound table) {line : List Char} (single : '\n' ∉ line)
    (rest : List Char) :
    (innerOf table (line ++ ['\r'])).map (unreturned (line ++ '\r' :: '\n' :: rest)) =
      innerOf table line := by
  rw [innerOf_append_return sound single, List.map_map]
  exact (List.map_congr_left fun _ member => unreturned_withReturn sound member single rest).trans
    (List.map_id _)

section Behind
variable {line kept rest : List Char} (shortens : Shortens line kept rest)
include shortens

/-- Behind a line, returns are left out as in the rest by itself, and the places move back with the line. -/
theorem unreturned_shift (token : Token) :
    unreturned (line ++ '\n' :: rest) (shift (line.length + 1) 1 token) =
      shift (kept.length + 1) 1 (unreturned rest token) := by
  have whole (offset : Nat) : returnsBefore (line ++ '\n' :: rest) (offset + (line.length + 1)) =
      returnsBefore (line ++ '\n' :: rest) (line.length + 1) + returnsBefore rest offset := by
    have added := returnsBefore_add (line ++ ['\n']) rest offset
    rw [List.length_append, List.length_singleton, List.append_assoc, List.singleton_append] at added
    rw [Nat.add_comm offset, added]
  have length := shortens.length
  have start := returnsBefore_le rest token.span.start
  have stop := returnsBefore_le rest token.span.stop
  refine token_ext rfl ?_ ?_
  · rw [toList_literal_unreturned, retold_shift, ← toList_literal_unreturned]
    rfl
  · simp only [unreturned, shift, shiftSpan, whole, Span.mk.injEq, and_true]
    omega

private theorem innerOf_dropReturns_cons (sound : Sound table)
    (first : (innerOf table line).map (unreturned (line ++ '\n' :: rest)) = innerOf table kept)
    (later : innerOf table (dropReturns rest) = (innerOf table rest).map (unreturned rest)) :
    innerOf table (dropReturns (line ++ '\n' :: rest)) =
      (innerOf table (line ++ '\n' :: rest)).map (unreturned (line ++ '\n' :: rest)) := by
  have behind : unreturned (line ++ '\n' :: rest) ∘ shift (line.length + 1) 1 =
      shift (kept.length + 1) 1 ∘ unreturned rest := funext (unreturned_shift shortens)
  rw [shortens.dropped, innerOf_append_lineFeed sound, innerOf_append_lineFeed sound,
    List.count_eq_zero.mpr shortens.single.1, List.count_eq_zero.mpr shortens.single.2, later,
    List.map_append, first, List.map_map, List.map_map, behind]

end Behind

private theorem unended_nil {line : List Char} (single : '\n' ∉ line) : Unended line [] :=
  ⟨single, fun feed => by cases feed⟩

private theorem dropReturns_of_single {line : List Char} (single : '\n' ∉ line) : dropReturns line = line := by
  have same := dropReturns_append (unended_nil single)
  rwa [dropReturns, List.append_nil] at same

private theorem innerOf_dropReturns (sound : Sound table) {text : List Char} {lines : List (List Char)}
    (division : Lines '\n' '\r' text lines) :
    innerOf table (dropReturns text) = (innerOf table text).map (unreturned text) := by
  induction division with
  | done =>
    rw [dropReturns, innerOf, innerFrom_of_nil]
    rfl
  | @last line _ single =>
    have kept := map_unreturned_of_unended sound (unended_nil single)
    rw [List.append_nil] at kept
    rw [dropReturns_of_single single, kept]
  | @ended line rest _ single ending _ ih =>
    exact innerOf_dropReturns_cons (shortens_ended single ending rest) sound
      (map_unreturned_of_unended sound ⟨single, fun _ => ending⟩) ih
  | @returned line rest _ single _ ih =>
    have first := map_unreturned_return sound single rest
    rw [List.append_cons] at first ⊢
    exact innerOf_dropReturns_cons (shortens_returned single rest) sound first ih

private theorem after_append_lineFeed {line : List Char} (single : '\n' ∉ line) (rest : List Char) :
    Position.origin.after (line ++ '\n' :: rest) =
      shiftPosition (line.length + 1) 1 (Position.origin.after rest) := by
  rw [Position.after_append, Position.after_cons, after_lineFeed, List.count_eq_zero.mpr single,
    after_shiftPosition]

def lastOf (text : List Char) : Token := .atEnd (.point (Position.origin.after text))

private theorem lastOf_append_lineFeed {line : List Char} (single : '\n' ∉ line) (rest : List Char) :
    lastOf (line ++ '\n' :: rest) = shift (line.length + 1) 1 (lastOf rest) := by
  rw [lastOf, after_append_lineFeed single]
  rfl

private theorem unreturned_lastOf_of_single {line : List Char} (single : '\n' ∉ line) :
    unreturned line (lastOf line) = lastOf line := by
  have none : returnsBefore line line.length = 0 := by
    have whole := returnsBefore_append (unended_nil single) (Nat.le_refl _)
    rwa [List.append_nil] at whole
  have place := after_origin_offset line
  refine token_ext rfl rfl ?_
  simp [unreturned, lastOf, Token.atEnd, Span.point, Span.between, place, none]

private theorem lastOf_dropReturns_cons {line kept rest : List Char} (shortens : Shortens line kept rest)
    (later : lastOf (dropReturns rest) = unreturned rest (lastOf rest)) :
    lastOf (dropReturns (line ++ '\n' :: rest)) =
      unreturned (line ++ '\n' :: rest) (lastOf (line ++ '\n' :: rest)) := by
  rw [shortens.dropped, lastOf_append_lineFeed shortens.single.2, later,
    lastOf_append_lineFeed shortens.single.1, unreturned_shift shortens]

/-- The end of a text comes earlier by all its returns, on the same line and in the same column. -/
theorem lastOf_dropReturns {text : List Char} {lines : List (List Char)}
    (division : Lines '\n' '\r' text lines) :
    lastOf (dropReturns text) = unreturned text (lastOf text) := by
  induction division with
  | done => rfl
  | @last line _ single => rw [dropReturns_of_single single, unreturned_lastOf_of_single single]
  | @ended line rest _ single ending _ ih =>
    exact lastOf_dropReturns_cons (shortens_ended single ending rest) ih
  | @returned line rest _ single _ ih =>
    rw [List.append_cons]
    exact lastOf_dropReturns_cons (shortens_returned single rest) ih

/-- Under every table that can be made, a source without the carriage returns before its line feeds has
the tokens of the source with them, each as early as returns are missing before it. -/
theorem tokenize_withoutReturns {table : SymbolTable} (obtained : Obtainable table) (source : String) :
    table.tokenize (withoutReturns source) = (table.tokenize source).map (unreturned source.toList) := by
  have sound := obtained.sound
  obtain ⟨lines, division⟩ := exists_lines '\n' '\r' source.toList List.not_mem_nil
  rw [List.nil_append] at division
  obtain ⟨tokens, _⟩ := tokenize_tiles sound source
  obtain ⟨others, _⟩ := tokenize_tiles sound (withoutReturns source)
  have text : (withoutReturns source).toList = dropReturns source.toList := String.toList_ofList
  have inner := innerOf_dropReturns sound division
  have last := lastOf_dropReturns division
  rw [others, tokens, innerTokens_eq, innerTokens_eq, text, inner, List.map_append]
  exact congrArg (fun token => _ ++ [token]) last

theorem tokenize_withoutReturns_comment :
    let source := "a\r//大\r\r\n大過\r\n\r\n//b\n1//\r"
    Obtainable .cantonese ∧ withoutReturns source = "a\r//大\r\n大過\n\n//b\n1//\r" ∧
      SymbolTable.cantonese.tokenize (withoutReturns source) =
        (SymbolTable.cantonese.tokenize source).map (unreturned source.toList) ∧
      SymbolTable.cantonese.tokenize (withoutReturns source) =
        [⟨.identifier, "a", ⟨0, 1, 1, 1⟩⟩, ⟨.comment, "//大\r", ⟨2, 6, 1, 3⟩⟩,
          ⟨.greaterThan, "大過", ⟨7, 9, 2, 1⟩⟩, ⟨.comment, "//b", ⟨11, 14, 4, 1⟩⟩, ⟨.number, "1", ⟨15, 16, 5, 1⟩⟩,
          ⟨.comment, "//\r", ⟨16, 19, 5, 2⟩⟩, .atEnd ⟨19, 19, 5, 5⟩] := by
  intro source
  exact ⟨.cantonese, by decide, tokenize_withoutReturns .cantonese source, by decide +kernel⟩

example :
    unreturned "//大\r\r\n大過".toList ⟨.comment, "//大\r\r", ⟨0, 5, 1, 1⟩⟩ =
        ⟨.comment, "//大\r", ⟨0, 4, 1, 1⟩⟩ ∧
      unreturned "//大\r\r\n大過".toList ⟨.greaterThan, "大過", ⟨6, 8, 2, 1⟩⟩ =
        ⟨.greaterThan, "大過", ⟨5, 7, 2, 1⟩⟩ := by
  decide

end CantoScan.Proofs.CarriageReturns
