import CantoScan.Listing
import CantoScan.Proofs.LineBreaks
import CantoScan.Proofs.LineCutting

/-! The lines of a source, scanned one by one. A line by itself gives the tokens that the whole source
has on it. Only a comment knows of the carriage return at the end of its line: it loses the return when
the line does. -/

namespace CantoScan.Proofs.SessionLines
open SourceRuns TableRules LexemeReach LexemeLaw ScanReading Tiling TokenStream LineBreaks LineCutting

variable {table : SymbolTable}

theorem stands_of_mem (sound : Sound table) {text : List Char} {token : Token}
    (member : token ∈ innerOf table text) : Stands table text token := by
  obtain ⟨_, _, stand⟩ := tokenize_tiles sound (String.ofList text)
  rw [innerTokens_eq, String.toList_ofList] at stand
  exact stand token member

private theorem exists_line (sound : Sound table) {text : List Char} {token : Token}
    (member : token ∈ innerOf table text) :
    ∃ before rest, text = before ++ rest ∧ token.span.line = 1 + before.count '\n' := by
  obtain ⟨before, c, rest, whole, _, rfl⟩ := stands_of_mem sound member
  exact ⟨before, c :: rest, whole, Position.after_line .origin before⟩

section Comment
variable {c : Char} {rest : List Char}

private theorem lexeme_of_opensComment (opens : table.opensComment c rest = true) (single : '\n' ∉ rest) :
    table.lexeme c rest = ⟨.comment, c :: rest, []⟩ := by
  have inside : ∀ d ∈ rest, (d ≠ '\n' : Bool) = true := by
    intro d member
    exact decide_eq_true fun feed => single (feed ▸ member)
  rw [(Reading.comment opens).eq, Lexeme.run, List.takeWhile_eq_self_iff.mpr inside,
    List.dropWhile_eq_nil_iff.mpr inside]

private theorem opensComment_append (opens : table.opensComment c rest = true) (behind : List Char) :
    table.opensComment c (rest ++ behind) = true := by
  obtain ⟨d, rest, rfl, _⟩ := opensComment_eq_true opens
  exact (opensComment_congr rfl).trans opens

end Comment

/-- A token before a carriage return is set behind its text. Only a comment takes the return in. -/
def withReturn (token : Token) : Token :=
  if token.kind = .comment then
    { token with
      literal := token.literal.push '\r'
      span := { token.span with stop := token.span.stop + 1 } }
  else token

theorem withReturn_of_ne {token : Token} (other : token.kind ≠ .comment) : withReturn token = token :=
  if_neg other

private theorem withReturn_comment (position : Position) (text : List Char) :
    withReturn ⟨.comment, String.ofList text, .between position (position.after text)⟩ =
      ⟨.comment, String.ofList (text ++ ['\r']), .between position (position.after (text ++ ['\r']))⟩ := by
  have offset : (position.after (text ++ ['\r'])).offset = (position.after text).offset + 1 := by
    rw [Position.after_append, Position.after_offset _ ['\r']]
    rfl
  have literal : (String.ofList text).push '\r' = String.ofList (text ++ ['\r']) :=
    String.toList_inj.mp (by simp)
  rw [withReturn, if_pos rfl, Span.between, Span.between, offset, literal]

private theorem innerFrom_append_return (sound : Sound table) (unread : Unread) (single : '\n' ∉ unread.text) :
    innerFrom table ⟨unread.position, unread.text ++ ['\r']⟩ =
      (innerFrom table unread).map withReturn := by
  induction unread using scan_induction table with
  | blank unread done =>
    rw [innerFrom_append_of_blank _ done, innerFrom_of_blank done]
    exact innerFrom_of_blank rfl
  | lexeme unread c rest front ih =>
    obtain ⟨blanks, blank, whole, place⟩ := text_eq unread
    have visible := isBlank_of_skipBlanks front
    rw [front] at whole
    rw [innerFrom_of_lexeme sound front, List.map_cons]
    have behind : '\n' ∉ rest := fun inside => single (by simp [whole, inside])
    by_cases comment : (table.lexeme c rest).kind = .comment
    · have opens := opensComment_of_kind sound comment
      have short := lexeme_of_opensComment opens behind
      have long := lexeme_of_opensComment (opensComment_append opens ['\r']) (by simpa using behind)
      rw [whole, List.append_assoc, List.cons_append,
        innerFrom_append_lexeme unread.position blank sound visible long, tokenAt_eq short, ← place]
      dsimp only
      rw [innerFrom_of_nil, innerFrom_of_nil, withReturn_comment]
      rfl
    · have blank : Text.isBlank '\r' = true := rfl
      have follows := follows_append (table.lexeme c rest) blank (fun own => absurd own comment) []
      have further : '\n' ∉ (table.lexeme c rest).rest := by
        obtain ⟨body, _, left⟩ := lexeme_text_cons table c rest
        exact fun inside => behind (by rw [left]; exact List.mem_append_right body inside)
      rw [innerFrom_append_of_lexeme _ sound front follows, withReturn_of_ne comment]
      exact congrArg _ (ih further)

/-- What a listing shows of a token. -/
structure Shown where
  kind : Kind
  literal : List Char
  line : Nat
  column : Nat
  deriving DecidableEq

def shown (token : Token) : Shown :=
  ⟨token.kind, token.literal.toList, token.span.line, token.span.column⟩

/-- A token of a source as its line by itself gives it: on the first line, and without the carriage
return that a comment has in front of the line feed. -/
def retold (source : List Char) (token : Token) : Shown :=
  let returned := token.kind = .comment ∧ token.literal.toList.getLast? = some '\r' ∧
    source[token.span.stop]? = some '\n'
  ⟨token.kind, if returned then token.literal.toList.dropLast else token.literal.toList, 1,
    token.span.column⟩

private theorem retold_of_other {source : List Char} {token : Token} (first : token.span.line = 1)
    (other : token.kind = .comment → token.literal.toList.getLast? = some '\r' →
      source[token.span.stop]? ≠ some '\n') : retold source token = shown token := by
  have kept : ¬ (token.kind = .comment ∧ token.literal.toList.getLast? = some '\r' ∧
      source[token.span.stop]? = some '\n') :=
    fun ⟨comment, ending, feed⟩ => other comment ending feed
  rw [retold, if_neg kept, shown, first]

section Single
variable (sound : Sound table) {text : List Char} (single : '\n' ∉ text) {token : Token}
  (member : token ∈ innerOf table text)
include sound single member

private theorem line_eq_one : token.span.line = 1 := by
  obtain ⟨before, rest, rfl, line⟩ := exists_line sound member
  rw [line, List.count_eq_zero.mpr fun inside => single (List.mem_append_left rest inside)]

theorem stop_of_comment (comment : token.kind = .comment) : token.span.stop = text.length := by
  have rule := (stands_of_mem sound member).rule
  rw [comment] at rule
  generalize token.span.stop = stop at rule ⊢
  cases rule with
  | comment _ run =>
    by_contra short
    have inside : stop < text.length := Nat.lt_of_le_of_ne run.within short
    have found := List.getElem?_eq_getElem inside
    have feed := run.ended _ found
    simp only [ne_eq, decide_not, Bool.not_eq_false', decide_eq_true_eq] at feed
    exact single (feed ▸ List.getElem_mem inside)
  | double _ bound => cases doubleAt_kind sound bound
  | single _ _ bound => cases singleAt_kind sound bound

private theorem getLast?_of_comment (comment : token.kind = .comment) :
    token.literal.toList.getLast? = text.getLast? := by
  have stand := stands_of_mem sound member
  have stop := stop_of_comment sound single member comment
  have inside := stand.start_lt_stop
  rw [stand.literal, stop, ← List.drop_eq_extract, List.getLast?_drop, if_neg (by omega)]

theorem retold_kept {behind : List Char}
    (kept : behind.head? = some '\n' → text.getLast? ≠ some '\r') :
    retold (text ++ behind) token = shown token := by
  apply retold_of_other (line_eq_one sound single member)
  intro comment ending feed
  rw [stop_of_comment sound single member comment, List.getElem?_append_right (Nat.le_refl _),
    Nat.sub_self, ← List.head?_eq_getElem?] at feed
  exact kept feed ((getLast?_of_comment sound single member comment).symm.trans ending)

theorem retold_withReturn (behind : List Char) :
    retold (text ++ '\r' :: '\n' :: behind) (withReturn token) = shown token := by
  have first := line_eq_one sound single member
  by_cases comment : token.kind = .comment
  · have stop := stop_of_comment sound single member comment
    simp [retold, withReturn, shown, comment, stop, first]
  · rw [withReturn_of_ne comment]
    exact retold_of_other first fun own => absurd own comment

end Single

theorem retold_shift (line rest : List Char) (lines : Nat) (token : Token) :
    retold (line ++ '\n' :: rest) (shift (line.length + 1) lines token) = retold rest token := by
  have place : (line ++ '\n' :: rest)[token.span.stop + (line.length + 1)]? = rest[token.span.stop]? := by
    rw [Nat.add_comm token.span.stop, Nat.add_assoc, getElem?_length_append, Nat.add_comm 1,
      List.getElem?_cons_succ]
  simp only [retold, shift, shiftSpan, place]

def onLine (n : Nat) (tokens : List Token) : List Token := tokens.filter (·.span.line = n)

private theorem onLine_append (n : Nat) (first second : List Token) :
    onLine n (first ++ second) = onLine n first ++ onLine n second :=
  List.filter_append ..

section Joint
variable (sound : Sound table)
include sound

theorem innerOf_append_return {text : List Char} (single : '\n' ∉ text) :
    innerOf table (text ++ ['\r']) = (innerOf table text).map withReturn :=
  innerFrom_append_return sound ⟨.origin, text⟩ single

private theorem one_le_line {text : List Char} {token : Token} (member : token ∈ innerOf table text) :
    1 ≤ token.span.line := by
  obtain ⟨before, _, _, line⟩ := exists_line sound member
  omega

private theorem onLine_of_single {line : List Char} (single : '\n' ∉ line) :
    onLine 1 (innerOf table line) = innerOf table line ∧
      ∀ n, onLine (n + 2) (innerOf table line) = [] := by
  constructor
  · apply List.filter_eq_self.mpr
    intro token member
    exact decide_eq_true (line_eq_one sound single member)
  · intro n
    apply List.filter_eq_nil_iff.mpr
    intro token member
    simp [line_eq_one sound single member]

/-- The tokens of a text up to its first line feed are those of its first line, and the tokens behind it
are those of the rest, each on the next line. -/
theorem onLine_append_lineFeed {line : List Char} (single : '\n' ∉ line) (rest : List Char) :
    onLine 1 (innerOf table (line ++ '\n' :: rest)) = innerOf table line ∧
      ∀ n, onLine (n + 2) (innerOf table (line ++ '\n' :: rest)) =
        (onLine (n + 1) (innerOf table rest)).map (shift (line.length + 1) 1) := by
  have joint := innerOf_append_lineFeed sound line rest
  rw [List.count_eq_zero.mpr single, Nat.add_zero] at joint
  obtain ⟨first, later⟩ := onLine_of_single sound single
  constructor
  · have moved : onLine 1 ((innerOf table rest).map (shift (line.length + 1) 1)) = [] := by
      apply List.filter_eq_nil_iff.mpr
      intro token member
      obtain ⟨original, inside, rfl⟩ := List.mem_map.mp member
      have bound := one_le_line sound inside
      have later : (shift (line.length + 1) 1 original).span.line ≠ 1 := by
        change original.span.line + 1 ≠ 1
        omega
      simpa using later
    rw [joint, onLine_append, first, moved, List.append_nil]
  · intro n
    rw [joint, onLine_append, later, List.nil_append, onLine, List.filter_map, onLine]
    congr 1
    apply List.filter_congr
    intro token member
    simp [shift, shiftSpan]

private theorem retold_onLine_cons {front line rest : List Char} {lines : List (List Char)} (single : '\n' ∉ front)
    (first : (innerOf table front).map (retold (front ++ '\n' :: rest)) = (innerOf table line).map shown)
    (later : ∀ n, (onLine (n + 1) (innerOf table rest)).map (retold rest) =
      lines[n]?.elim [] fun line => (innerOf table line).map shown) (n : Nat) :
    (onLine (n + 1) (innerOf table (front ++ '\n' :: rest))).map (retold (front ++ '\n' :: rest)) =
      (line :: lines)[n]?.elim [] fun line => (innerOf table line).map shown := by
  obtain ⟨here, behind⟩ := onLine_append_lineFeed sound single rest
  cases n with
  | zero =>
    rw [here]
    exact first
  | succ n =>
    rw [behind, List.map_map, List.getElem?_cons_succ, ← later]
    congr 1
    funext token
    exact retold_shift front rest 1 token

/-- The tokens of each line of a text, and of no other. -/
theorem retold_onLine {text : List Char} {lines : List (List Char)} (division : Lines '\n' '\r' text lines)
    (n : Nat) :
    (onLine (n + 1) (innerOf table text)).map (retold text) =
      lines[n]?.elim [] fun line => (innerOf table line).map shown := by
  induction division generalizing n with
  | done =>
    rw [innerOf, innerFrom_of_nil]
    rfl
  | @last line _ single =>
    obtain ⟨here, behind⟩ := onLine_of_single sound single
    cases n with
    | zero =>
      rw [here]
      apply List.map_congr_left
      intro token member
      have same : retold (line ++ []) token = shown token :=
        retold_kept sound single member fun feed => by cases feed
      rwa [List.append_nil] at same
    | succ n =>
      rw [behind]
      rfl
  | @ended line rest lines single ending _ ih =>
    apply retold_onLine_cons sound single _ ih
    apply List.map_congr_left
    intro token member
    exact retold_kept sound single member fun _ => ending
  | @returned line rest lines single _ ih =>
    have singleToo : '\n' ∉ line ++ ['\r'] := by simpa using single
    rw [List.append_cons line]
    apply retold_onLine_cons sound singleToo _ ih
    rw [innerOf_append_return sound single, List.map_map]
    apply List.map_congr_left
    intro token member
    rw [Function.comp_apply, List.append_assoc]
    exact retold_withReturn sound single member rest

end Joint

/-- The tokens that a session or a listing without the end would show of a source. -/
def told (table : SymbolTable) (listing : Listing) (source : String) : List Token :=
  (listing.select (table.tokenize source)).filter (!·.isEnd)

private theorem told_eq (table : SymbolTable) (listing : Listing) (source : String) :
    told table listing source = listing.select (innerOf table source.toList) := by
  rw [told, Listing.select, List.filter_comm]
  rfl

private theorem map_select {listing : Listing} {view : Token → Shown}
    (kind : ∀ token, (view token).kind = token.kind) (tokens : List Token) :
    (listing.select tokens).map view =
      (tokens.map view).filter fun seen => !(listing.skipComments && seen.kind = .comment) := by
  rw [List.filter_map, Listing.select]
  simp only [Function.comp_def, kind]

/-- Whether comments are left out or not, a line shows what the whole text has on it. -/
theorem retold_told (sound : Sound table) (listing : Listing) {source : String} {lines : List String}
    (division : Lines '\n' '\r' source.toList (lines.map String.toList)) (n : Nat) :
    (onLine (n + 1) (told table listing source)).map (retold source.toList) =
      lines[n]?.elim [] fun line => (told table listing line).map shown := by
  have same := retold_onLine sound division n
  have swapped : onLine (n + 1) (listing.select (innerOf table source.toList)) =
      listing.select (onLine (n + 1) (innerOf table source.toList)) := by
    rw [onLine, Listing.select, List.filter_comm]
    rfl
  rw [told_eq, swapped, map_select fun _ => rfl, same, List.getElem?_map]
  cases lines[n]? with
  | none => rfl
  | some line =>
    rw [Option.map_some, Option.elim_some, Option.elim_some, told_eq]
    exact (map_select (fun _ => rfl) _).symm

end CantoScan.Proofs.SessionLines
