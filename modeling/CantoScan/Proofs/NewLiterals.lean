import CantoScan.Proofs.TokenStream

/-! What a new literal changes. Scanning goes on as before up to the first token that the literal takes
over; it takes over nothing inside a token, nor where a rule of higher rank applies. -/

namespace CantoScan.Proofs.NewLiterals
open TableUpdates TableRules LexemeReach ScanReading

/-- A token that a literal would take over: the source goes on with the literal where the token begins.
One of a single character takes over only what no literal has been read for. -/
structure Hit (source literal : List Char) (token : Token) : Prop where
  inner : token.kind ≠ .endOfInput
  begins : literal <+: source.drop token.span.start
  free : literal.length = 1 → token.kind = .identifier ∨ token.kind = .invalid

instance (source literal : List Char) (token : Token) : Decidable (Hit source literal token) :=
  decidable_of_iff
    (token.kind ≠ .endOfInput ∧ literal <+: source.drop token.span.start ∧
      (literal.length = 1 → token.kind = .identifier ∨ token.kind = .invalid))
    ⟨fun ⟨inner, begins, free⟩ => ⟨inner, begins, free⟩, fun hit => ⟨hit.inner, hit.begins, hit.free⟩⟩

section Front
variable {table : SymbolTable} {kind : Kind} {c : Char} {rest : List Char}

private theorem opensDouble_bindDouble {first second : Char} (free : table.double first second = none) :
    (table.bindDouble first second kind).opensDouble c rest =
      if [first, second] <+: c :: rest then some kind else table.opensDouble c rest := by
  rw [SymbolTable.opensDouble_eq, SymbolTable.opensDouble_eq]
  cases rest with
  | nil => simp
  | cons d rest =>
    simp only [List.head?_cons, Option.bind_some, SymbolTable.double_bindDouble free, List.cons_prefix_cons,
      List.nil_prefix, and_true, Prod.mk.injEq]
    simp only [eq_comm]

private theorem bound_of_own (sound : Sound table)
    (own : (table.lexeme c rest).kind = .identifier ∨ (table.lexeme c rest).kind = .invalid) :
    table.opensComment c rest = false ∧ table.opensDouble c rest = none ∧ table.single c = none := by
  have scanned : (table.lexeme c rest).kind.isScanned = true := by
    rcases own with own | own <;> rw [own] <;> rfl
  rcases (reading_lexeme table c rest).of_scanned sound scanned with ⟨_, comment⟩ | ⟨plain, unbound, free, _⟩
  · rw [comment] at own
    rcases own with own | own <;> cases own
  · exact ⟨plain, unbound, free⟩

private theorem lexeme_bindSingle_of_own (sound : Sound table) (free : table.single c = none)
    (own : (table.lexeme c rest).kind = .identifier ∨ (table.lexeme c rest).kind = .invalid) :
    (table.bindSingle c kind).lexeme c rest = ⟨kind, [c], rest⟩ := by
  obtain ⟨plain, unbound, _⟩ := bound_of_own sound own
  have bound : (table.bindSingle c kind).single c = some kind := by
    rw [SymbolTable.single_bindSingle free, if_pos rfl]
  exact Reading.eq (.single plain unbound bound)

private theorem lexeme_bindSingle_of_other {d : Char} (free : table.single d = none) (plain : d.isDigit = false)
    (other : c = d →
      ¬ ((table.lexeme c rest).kind = .identifier ∨ (table.lexeme c rest).kind = .invalid)) :
    (table.bindSingle d kind).lexeme c rest = table.lexeme c rest := by
  have reading := reading_lexeme table c rest
  generalize table.lexeme c rest = lexeme at reading other
  have kept : c ≠ d → (table.bindSingle d kind).single c = table.single c := by
    intro different
    rw [SymbolTable.single_bindSingle free, if_neg different]
  apply Reading.eq
  cases reading with
  | comment opens => exact .comment opens
  | double first bound => exact .double first bound
  | single first second bound =>
    have different : c ≠ d := by
      rintro rfl
      rw [free] at bound
      cases bound
    exact .single first second ((kept different).trans bound)
  | number first second unbound digit =>
    have different : c ≠ d := by
      rintro rfl
      rw [plain] at digit
      cases digit
    exact .number first second ((kept different).trans unbound) digit
  | identifier first second unbound digit letter =>
    have different : c ≠ d := fun same => other same (.inl rfl)
    exact .identifier first second ((kept different).trans unbound) digit letter
  | invalid first second unbound digit sign =>
    have different : c ≠ d := fun same => other same (.inr rfl)
    exact .invalid first second ((kept different).trans unbound) digit sign

section Pair
variable {first second : Char} (free : table.double first second = none)
include free

private theorem lexeme_bindDouble_of_begins (apart : table.startsComment first second = false)
    (begins : [first, second] <+: c :: rest) :
    (table.bindDouble first second kind).lexeme c rest =
      ⟨kind, [first, second], (c :: rest).drop 2⟩ := by
  have bound : (table.bindDouble first second kind).opensDouble c rest = some kind := by
    rw [opensDouble_bindDouble free, if_pos begins]
  obtain ⟨behind, whole⟩ := begins
  obtain ⟨rfl, rfl⟩ := List.cons.inj whole
  exact Reading.eq (.double apart bound)

private theorem lexeme_bindDouble_of_other (other : ¬ [first, second] <+: c :: rest) :
    (table.bindDouble first second kind).lexeme c rest = table.lexeme c rest := by
  unfold SymbolTable.lexeme
  rw [opensDouble_bindDouble free, if_neg other]
  rfl

private theorem content_ne_of_begins (apart : table.startsComment first second = false)
    (unscanned : kind.isScanned = false) (begins : [first, second] <+: c :: rest) :
    ((table.lexeme c rest).kind, (table.lexeme c rest).text) ≠ (kind, [first, second]) := by
  obtain ⟨behind, whole⟩ := begins
  obtain ⟨rfl, rfl⟩ := List.cons.inj whole
  have reading := reading_lexeme table first ([second] ++ behind)
  generalize table.lexeme first ([second] ++ behind) = lexeme at reading
  intro same
  obtain ⟨rfl, text⟩ := Prod.mk.inj same
  cases reading with
  | comment opens => exact absurd (opens.symm.trans apart) (by decide)
  | double _ bound =>
    rw [SymbolTable.opensDouble_eq] at bound
    exact absurd (bound.symm.trans free) (by simp)
  | single => simp at text
  | number | identifier | invalid => cases unscanned

end Pair

end Front

/-- Whether a new literal takes over what is read at the front of a text. -/
def TakesOver (table : SymbolTable) (literal : List Char) (c : Char) (rest : List Char) : Prop :=
  literal <+: c :: rest ∧
    (literal.length = 1 →
      (table.lexeme c rest).kind = .identifier ∨ (table.lexeme c rest).kind = .invalid)

section Step
variable {table after : SymbolTable} {literal : String} {kind : Kind} {c : Char} {rest : List Char}

private theorem lexeme_inserted_of_taken (sound : Sound table)
    (inserted : table.insert literal kind = (.ok (), after)) (taken : TakesOver table literal.toList c rest) :
    after.lexeme c rest = ⟨kind, literal.toList, (c :: rest).drop literal.toList.length⟩ ∧
      ((table.lexeme c rest).kind, (table.lexeme c rest).text) ≠ (kind, literal.toList) := by
  obtain ⟨begins, own⟩ := taken
  obtain ⟨unscanned, _, binding⟩ := insert_eq_ok inserted
  rcases binding with ⟨d, one, free, rfl⟩ | ⟨first, second, two, apart, free, rfl⟩
  · rw [one] at begins own ⊢
    obtain rfl : d = c := (List.cons_prefix_cons.mp begins).1
    refine ⟨lexeme_bindSingle_of_own sound free (own rfl), ?_⟩
    intro same
    obtain ⟨rfl, _⟩ := Prod.mk.inj same
    rcases own rfl with scanned | scanned <;> rw [scanned] at unscanned <;> cases unscanned
  · rw [two] at begins ⊢
    exact ⟨lexeme_bindDouble_of_begins free apart begins, content_ne_of_begins free apart unscanned begins⟩

private theorem lexeme_inserted_of_not_taken (inserted : table.insert literal kind = (.ok (), after))
    (kept : ¬ TakesOver table literal.toList c rest) : after.lexeme c rest = table.lexeme c rest := by
  obtain ⟨_, plain, binding⟩ := insert_eq_ok inserted
  rcases binding with ⟨d, one, free, rfl⟩ | ⟨first, second, two, _, free, rfl⟩
  · have digit : d.isDigit = false := by
      have reserved := plain d (by simp [one])
      simp only [SymbolTable.isReserved, Bool.or_eq_false_iff] at reserved
      exact reserved.1
    apply lexeme_bindSingle_of_other free digit
    rintro rfl own
    exact kept ⟨by simp [one], fun _ => own⟩
  · apply lexeme_bindDouble_of_other free
    intro begins
    exact kept ⟨two ▸ begins, by simp [two]⟩

end Step

section Scan
variable {table after : SymbolTable} {literal : String} {kind : Kind}

private theorem hit_tokenAt (sound : Sound table) {source : List Char} {position : Position} {c : Char}
    {rest : List Char} (reads : Reads source ⟨position, c :: rest⟩) (visible : Text.isBlank c = false) :
    Hit source literal.toList (table.tokenAt position c rest).1 ↔ TakesOver table literal.toList c rest := by
  have inner := isEnd_tokenAt sound position rest visible
  have place : source.drop (table.tokenAt position c rest).1.span.start = c :: rest := by
    obtain ⟨before, rfl, rfl⟩ := reads
    rw [start_tokenAt, after_origin_offset, List.drop_left]
  constructor
  · intro hit
    exact ⟨place ▸ hit.begins, hit.free⟩
  · intro taken
    exact ⟨of_decide_eq_false inner, place ▸ taken.1, taken.2⟩

/-- The token that a new literal makes where another token began. -/
def takenOver (literal : String) (kind : Kind) (token : Token) : Token :=
  ⟨kind, literal, { token.span with stop := token.span.start + literal.length }⟩

private theorem tokenAt_taken (sound : Sound table) (inserted : table.insert literal kind = (.ok (), after))
    (position : Position) {c : Char} {rest : List Char} (taken : TakesOver table literal.toList c rest) :
    (after.tokenAt position c rest).1 = takenOver literal kind (table.tokenAt position c rest).1 ∧
      (after.tokenAt position c rest).1 ≠ (table.tokenAt position c rest).1 := by
  obtain ⟨read, other⟩ := lexeme_inserted_of_taken sound inserted taken
  rw [TokenStream.tokenAt_eq read]
  constructor
  · rw [takenOver, start_tokenAt, Span.between, Position.after_offset, String.ofList_toList,
      String.length_toList]
    rfl
  · intro same
    have kinds := congrArg Token.kind same
    have literals := congrArg (·.literal.toList) same
    simp only [kind_tokenAt, toList_literal_tokenAt, String.toList_ofList] at kinds literals
    exact other (by rw [← kinds, ← literals])

private theorem tokenAt_not_taken (inserted : table.insert literal kind = (.ok (), after)) (position : Position)
    {c : Char} {rest : List Char} (kept : ¬ TakesOver table literal.toList c rest) :
    after.tokenAt position c rest = table.tokenAt position c rest := by
  rw [SymbolTable.tokenAt, SymbolTable.tokenAt, lexeme_inserted_of_not_taken inserted kept]

section Runs
variable (sound : Sound table) (inserted : table.insert literal kind = (.ok (), after)) {source : List Char}
include sound inserted

private theorem tokensFrom_of_no_hit (unread : Unread) (reads : Reads source unread)
    (missed : ∀ token ∈ (table.tokensFrom unread).1, ¬ Hit source literal.toList token) :
    after.tokensFrom unread = table.tokensFrom unread := by
  induction unread using scan_induction table with
  | blank unread done => rw [tokensFrom_of_blank done, tokensFrom_of_blank done]
  | lexeme unread c rest front ih =>
    have here := reads.skipBlanks
    rw [skipBlanks_eq front] at here
    rw [tokensFrom_of_lexeme sound front] at missed ⊢
    obtain ⟨first, later⟩ := List.forall_mem_cons.mp missed
    have same := tokenAt_not_taken inserted unread.skipBlanks.position
      fun taken => first ((hit_tokenAt sound here (isBlank_of_skipBlanks front)).mpr taken)
    rw [tokensFrom_of_lexeme (sound.insert inserted) front, same]
    dsimp only
    rw [ih (here.tokenAt table) later]

/-- The tokens before the first hit stay, and the new literal stands in its place. -/
theorem tokensFrom_of_hit (unread : Unread) (reads : Reads source unread) {earlier behind : List Token}
    {token : Token} (tokens : (table.tokensFrom unread).1 = earlier ++ token :: behind)
    (missed : ∀ other ∈ earlier, ¬ Hit source literal.toList other)
    (hit : Hit source literal.toList token) :
    takenOver literal kind token ≠ token ∧
      ∃ others, (after.tokensFrom unread).1 = earlier ++ takenOver literal kind token :: others := by
  induction unread using scan_induction table generalizing earlier with
  | blank unread done =>
    rw [tokensFrom_of_blank done] at tokens
    have member : token ∈ earlier ++ token :: behind := by simp
    rw [← tokens] at member
    exact absurd (List.mem_singleton.mp member ▸ rfl) hit.inner
  | lexeme unread c rest front ih =>
    have here := reads.skipBlanks
    rw [skipBlanks_eq front] at here
    have taken : Hit source literal.toList _ ↔ _ :=
      hit_tokenAt sound here (isBlank_of_skipBlanks front)
    rw [tokensFrom_of_lexeme sound front] at tokens
    rw [tokensFrom_of_lexeme (sound.insert inserted) front]
    cases earlier with
    | nil =>
      obtain ⟨rfl, _⟩ := List.cons.inj tokens
      obtain ⟨bound, other⟩ := tokenAt_taken sound inserted unread.skipBlanks.position (taken.mp hit)
      exact ⟨bound ▸ other, _, congrArg (· :: _) bound⟩
    | cons first earlier =>
      obtain ⟨rfl, later⟩ := List.cons.inj tokens
      obtain ⟨missedFirst, missed⟩ := List.forall_mem_cons.mp missed
      have same := tokenAt_not_taken inserted unread.skipBlanks.position (mt taken.mpr missedFirst)
      obtain ⟨other, others, found⟩ := ih (here.tokenAt table) later missed
      refine ⟨other, others, ?_⟩
      rw [same]
      exact congrArg (_ :: ·) found

end Runs

end Scan

/-- Under every table that can be made, a literal that is accepted leaves all tokens of a source as they
are if it takes over none of them, and else all before the first that it takes over. -/
theorem tokenize_inserted {table after : SymbolTable} (obtained : Obtainable table) {literal : String}
    {kind : Kind} (inserted : table.insert literal kind = (.ok (), after)) (source : String) :
    ((∀ token ∈ table.tokenize source, ¬ Hit source.toList literal.toList token) →
        after.tokenize source = table.tokenize source) ∧
      ∀ earlier token behind, table.tokenize source = earlier ++ token :: behind →
        (∀ other ∈ earlier, ¬ Hit source.toList literal.toList other) →
        Hit source.toList literal.toList token →
          let bound : Token := ⟨kind, literal,
            ⟨token.span.start, token.span.start + literal.length, token.span.line, token.span.column⟩⟩
          bound ≠ token ∧ ∃ others, after.tokenize source = earlier ++ bound :: others := by
  have sound := obtained.sound
  have reads := reads_ofSource source
  constructor
  · intro missed
    exact congrArg Prod.fst (tokensFrom_of_no_hit sound inserted _ reads missed)
  · intro earlier token behind tokens missed hit
    exact tokensFrom_of_hit sound inserted _ reads tokens missed hit

/-- A literal made of a keyword and a letter is read neither in a word nor in a comment. Where the two
stood side by side as tokens, it takes the place of both. -/
theorem tokenize_inserted_straddling :
    let table := SymbolTable.cantonese
    let after := table.bindDouble '入' 'a' .add
    let earlier : List Token :=
      [⟨.identifier, "x入a", ⟨0, 3, 1, 1⟩⟩, ⟨.comment, "//入a", ⟨3, 7, 1, 4⟩⟩, ⟨.number, "1", ⟨8, 9, 2, 1⟩⟩]
    Obtainable table ∧ table.insert "入a" .add = (.ok (), after) ∧
      after.tokenize "x入a//入a" = table.tokenize "x入a//入a" ∧
      ∃ others, after.tokenize "x入a//入a\n1入a" = earlier ++ ⟨.add, "入a", ⟨9, 11, 2, 2⟩⟩ :: others := by
  intro table after earlier
  have inserted : table.insert "入a" .add = (.ok (), after) := by decide +kernel
  have tokens : table.tokenize "x入a//入a\n1入a" =
      earlier ++ ⟨.into, "入", ⟨9, 10, 2, 2⟩⟩ ::
        [⟨.identifier, "a", ⟨10, 11, 2, 3⟩⟩, ⟨.endOfInput, "", ⟨11, 11, 2, 4⟩⟩] := by decide +kernel
  refine ⟨.cantonese, inserted, ?_, ?_⟩
  · exact (tokenize_inserted .cantonese inserted _).1 (by decide +kernel)
  · exact ((tokenize_inserted .cantonese inserted _).2 _ _ _ tokens (by decide +kernel)
      (by decide +kernel)).2

end CantoScan.Proofs.NewLiterals
