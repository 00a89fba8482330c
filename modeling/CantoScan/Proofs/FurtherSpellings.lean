import CantoScan.Proofs.EntryOrder

/-! Further spellings of known kinds. A table takes in those whose characters are free and never binds a
character anew, so neither the order in which they are offered nor a second offer changes an answer. -/

namespace CantoScan.Proofs.FurtherSpellings
open TableRules EntryOrder SymbolTable

def signKind? : Char → Option Kind
  | '(' => some .openParen
  | ')' => some .closeParen
  | '{' => some .openBrace
  | '}' => some .closeBrace
  | ';' => some .fullStop
  | ',' => some .comma
  | _ => none

def operatorKind? : Char → Option Kind
  | '加' => some .add
  | '減' => some .minus
  | '乘' => some .multiply
  | '除' => some .divide
  | _ => none

theorem lookup_asciiPunctuation (c : Char) : asciiPunctuation.lookup c = signKind? c := by
  unfold signKind?
  split
  case h_7 => exact List.lookup_eq_none_iff.mpr (by simp_all [asciiPunctuation])
  all_goals rfl

private theorem lookup_wordOperators (c : Char) : wordOperators.lookup c = operatorKind? c := by
  unfold operatorKind?
  split
  case h_5 => exact List.lookup_eq_none_iff.mpr (by simp_all [wordOperators])
  all_goals rfl

/-- The spellings whose characters a table does not bind. -/
def free (table : SymbolTable) (spellings : List (Char × Kind)) : List (Char × Kind) :=
  spellings.filter fun spelling => (table.single spelling.1).isNone

section Offers
variable {table : SymbolTable} {spellings : List (Char × Kind)}

private theorem single_offer (spelling : Char × Kind) (c : Char) :
    (table.offer spelling).single c =
      (table.single c).or (if c = spelling.1 then some spelling.2 else none) := by
  unfold offer
  split
  next unbound =>
    rw [single_bindSingle unbound]
    by_cases same : c = spelling.1
    · simp [same, unbound]
    · simp [same]
  next kind bound =>
    by_cases same : c = spelling.1
    · simp [same, bound]
    · simp [same]

private theorem offerAll_cons (spelling : Char × Kind) :
    table.offerAll (spelling :: spellings) = (table.offer spelling).offerAll spellings :=
  rfl

private theorem single_offerAll (c : Char) :
    (table.offerAll spellings).single c = (table.single c).or (spellings.lookup c) := by
  induction spellings generalizing table with
  | nil => simp [offerAll]
  | cons spelling spellings ih =>
    rw [offerAll_cons, ih, single_offer, Option.or_assoc, List.lookup_cons]
    by_cases same : c = spelling.1
    · simp [same]
    · simp [same, beq_eq_false_iff_ne.mpr same]

private theorem free_offer {spelling : Char × Kind} (other : ∀ later ∈ spellings, later.1 ≠ spelling.1) :
    free (table.offer spelling) spellings = free table spellings := by
  apply List.filter_congr
  intro later member
  rw [single_offer, if_neg (other later member), Option.or_none]

/-- The free spellings come behind the bindings of the table, in the order in which they are offered. -/
theorem offerAll_eq (distinct : (spellings.map Prod.fst).Nodup) :
    table.offerAll spellings = { table with singles := table.singles ++ free table spellings } := by
  induction spellings generalizing table with
  | nil => simp [offerAll, free]
  | cons spelling spellings ih =>
    obtain ⟨absent, distinct⟩ := List.nodup_cons.mp distinct
    have other : ∀ later ∈ spellings, later.1 ≠ spelling.1 :=
      fun later member same => absent (same ▸ List.mem_map_of_mem member)
    rw [offerAll_cons, ih distinct, free_offer other, offer, free, free, List.filter_cons]
    cases bound : table.single spelling.1 with
    | none => simp [bindSingle]
    | some kind => simp

private theorem offerAll_of_bound (bound : ∀ spelling ∈ spellings, table.single spelling.1 ≠ none) :
    table.offerAll spellings = table := by
  induction spellings with
  | nil => rfl
  | cons spelling spellings ih =>
    obtain ⟨first, rest⟩ := List.forall_mem_cons.mp bound
    obtain ⟨kind, known⟩ := Option.ne_none_iff_exists'.mp first
    rw [offerAll_cons, offer, known]
    exact ih rest

private theorem offerAll_offerAll :
    (table.offerAll spellings).offerAll spellings = table.offerAll spellings := by
  apply offerAll_of_bound
  intro spelling member unbound
  rw [single_offerAll, Option.or_eq_none_iff, List.lookup_eq_none_iff] at unbound
  simpa using unbound.2 spelling member

end Offers

/-- Two lists of spellings with neither a character nor a kind in common. -/
structure Apart (first second : List (Char × Kind)) : Prop where
  distinct : (first.map Prod.fst).Nodup
  distinctToo : (second.map Prod.fst).Nodup
  characters : ∀ one ∈ first, ∀ other ∈ second, one.1 ≠ other.1
  kinds : ∀ one ∈ first, ∀ other ∈ second, one.2 ≠ other.2

private theorem apart_asciiPunctuation_wordOperators : Apart asciiPunctuation wordOperators :=
  ⟨by decide, by decide, by decide, by decide⟩

theorem Apart.symm {first second : List (Char × Kind)} (apart : Apart first second) :
    Apart second first where
  distinct := apart.distinctToo
  distinctToo := apart.distinct
  characters one inside other member := (apart.characters other member one inside).symm
  kinds one inside other member := (apart.kinds other member one inside).symm

section Exchange
variable {table : SymbolTable} {first second : List (Char × Kind)} (apart : Apart first second)
include apart

private theorem free_offerAll : free (table.offerAll first) second = free table second := by
  apply List.filter_congr
  intro spelling member
  have absent : first.lookup spelling.1 = none := by
    apply List.lookup_eq_none_iff.mpr
    intro one inside
    exact bne_iff_ne.mpr (apart.characters one inside spelling member).symm
  rw [single_offerAll, absent, Option.or_none]

private theorem find?_free_append (kind : Kind) :
    (free table first ++ free table second).find? (·.2 = kind) =
      (free table second ++ free table first).find? (·.2 = kind) := by
  rw [List.find?_append, List.find?_append]
  cases found : (free table first).find? (·.2 = kind) with
  | none => simp
  | some one =>
    have same : one.2 = kind := by simpa using List.find?_some found
    have inside : one ∈ first := List.mem_of_mem_filter (List.mem_of_find?_eq_some found)
    have absent : (free table second).find? (·.2 = kind) = none := by
      apply List.find?_eq_none.mpr
      intro other member
      have different := apart.kinds one inside other (List.mem_of_mem_filter member)
      simpa [← same] using different.symm
    simp [absent]

private theorem offered_eq : (table.offerAll first).offerAll second =
    { table with singles := table.singles ++ (free table first ++ free table second) } := by
  rw [offerAll_eq apart.distinctToo, free_offerAll apart, offerAll_eq apart.distinct, List.append_assoc]

private theorem permuted_offered :
    Permuted ((table.offerAll first).offerAll second) ((table.offerAll second).offerAll first) := by
  rw [offered_eq apart, offered_eq apart.symm]
  exact ⟨List.perm_append_comm.append_left table.singles, .refl _, rfl⟩

private theorem literalOf?_offered (kind : Kind) :
    ((table.offerAll first).offerAll second).literalOf? kind =
      ((table.offerAll second).offerAll first).literalOf? kind := by
  have found : (table.singles ++ (free table first ++ free table second)).find? (·.2 = kind) =
      (table.singles ++ (free table second ++ free table first)).find? (·.2 = kind) := by
    rw [List.find?_append, find?_free_append apart, ← List.find?_append]
  rw [offered_eq apart, offered_eq apart.symm, literalOf?, literalOf?]
  simp only [found]

private theorem offered_eq_iff :
    (table.offerAll first).offerAll second = (table.offerAll second).offerAll first ↔
      free table first = [] ∨ free table second = [] := by
  rw [offered_eq apart, offered_eq apart.symm, SymbolTable.mk.injEq, List.append_right_inj]
  simp only [and_true]
  constructor
  · intro same
    cases one : free table first with
    | nil => exact .inl rfl
    | cons spelling spellings =>
      cases other : free table second with
      | nil => exact .inr rfl
      | cons later others =>
        rw [one, other] at same
        have inside : spelling ∈ first := List.mem_of_mem_filter (one ▸ List.mem_cons_self)
        have member : later ∈ second := List.mem_of_mem_filter (other ▸ List.mem_cons_self)
        exact absurd (congrArg Prod.fst (List.cons.inj same).1)
          (apart.characters spelling inside later member)
  · rintro (nothing | nothing)
    · rw [nothing, List.nil_append, List.append_nil]
    · rw [nothing, List.nil_append, List.append_nil]

end Exchange

/-- A table that has taken in the spellings of documented kinds as far as their characters were free. -/
structure TakenIn (table : SymbolTable) (documented : Char → Option Kind) (after : SymbolTable) :
    Prop where
  single : ∀ c, after.single c = (table.single c).or (documented c)
  singles : table.singles <+: after.singles
  doubles : after.doubles = table.doubles
  comment : after.comment = table.comment

section Documented
variable {table : SymbolTable} {spellings : List (Char × Kind)} {documented : Char → Option Kind}
  (known : ∀ c, spellings.lookup c = documented c)
include known

theorem takenIn_offerAll (distinct : (spellings.map Prod.fst).Nodup) :
    TakenIn table documented (table.offerAll spellings) := by
  refine ⟨?_, ?_, ?_, ?_⟩
  · intro c
    rw [single_offerAll, known]
  · rw [offerAll_eq distinct]
    exact List.prefix_append ..
  · rw [offerAll_eq distinct]
  · rw [offerAll_eq distinct]

private theorem free_eq_nil_iff :
    free table spellings = [] ↔ ∀ c, documented c ≠ none → table.single c ≠ none := by
  rw [free, List.filter_eq_nil_iff]
  constructor
  · intro bound c listed unbound
    rw [← known, ← Option.isSome_iff_ne_none, List.lookup_isSome_iff] at listed
    obtain ⟨spelling, member, same⟩ := listed
    obtain rfl : c = spelling.1 := by simpa using same
    exact bound spelling member (by simp [unbound])
  · intro bound spelling member unbound
    apply bound spelling.1 _ (by simpa using unbound)
    rw [← known, ne_eq, List.lookup_eq_none_iff]
    intro absent
    simpa using absent spelling member

end Documented

/-- Two tables that give the same answers and the same tokens. -/
structure Alike (first second : SymbolTable) : Prop extends SameAnswers first second where
  spelling : ∀ kind, first.literalOf? kind = second.literalOf? kind
  tokens : ∀ source, first.tokenize source = second.tokenize source

theorem alike_offered {table : SymbolTable} (sound : Sound table) :
    Alike table.withAsciiPunctuation.withWordOperators table.withWordOperators.withAsciiPunctuation := by
  have apart := apart_asciiPunctuation_wordOperators
  have permuted : Permuted table.withAsciiPunctuation.withWordOperators _ := permuted_offered apart
  have answers := permuted.sameAnswers ((sound.offerAll (by decide)).offerAll (by decide))
  have read := lexeme_congr answers.single answers.double permuted.comment
  refine ⟨answers, literalOf?_offered apart, ?_⟩
  intro source
  exact congrArg Prod.fst (tokensFrom_congr (next_congr read) (.ofSource source))

/-- What becomes of a table when signs and words are offered to it, once or twice and in either order.
The two orders leave the same table only if one of the two brings nothing new. -/
structure Offered (table : SymbolTable) : Prop where
  signs : TakenIn table signKind? table.withAsciiPunctuation
  words : TakenIn table operatorKind? table.withWordOperators
  signsTwice : table.withAsciiPunctuation.withAsciiPunctuation = table.withAsciiPunctuation
  wordsTwice : table.withWordOperators.withWordOperators = table.withWordOperators
  alike :
    Alike table.withAsciiPunctuation.withWordOperators table.withWordOperators.withAsciiPunctuation
  equal :
    table.withAsciiPunctuation.withWordOperators = table.withWordOperators.withAsciiPunctuation ↔
      (∀ c, signKind? c ≠ none → table.single c ≠ none) ∨
        ∀ c, operatorKind? c ≠ none → table.single c ≠ none

/-- Every table that can be made takes in signs and words without binding a character anew. To offer them
again changes nothing, and their order changes no answer, though it may be seen in the table. -/
theorem offered_of_obtainable {table : SymbolTable} (obtained : Obtainable table) :
    Offered table ∧ ∃ other : SymbolTable, Obtainable other ∧
      other.withAsciiPunctuation.withWordOperators ≠ other.withWordOperators.withAsciiPunctuation := by
  have apart := apart_asciiPunctuation_wordOperators
  refine ⟨⟨takenIn_offerAll lookup_asciiPunctuation apart.distinct,
    takenIn_offerAll lookup_wordOperators apart.distinctToo, offerAll_offerAll, offerAll_offerAll,
    alike_offered obtained.sound, ?_⟩, .cantonese, .cantonese, by decide⟩
  rw [← free_eq_nil_iff lookup_asciiPunctuation, ← free_eq_nil_iff lookup_wordOperators]
  exact offered_eq_iff apart

theorem offered_of_obtainable_bound :
    let table := attempt (attempt .cantonese "(" .add) "加" .minus
    Obtainable table ∧ Offered table ∧ table.withAsciiPunctuation.single '(' = some .add ∧
      table.withWordOperators.single '加' = some .minus ∧
      table.withAsciiPunctuation.withWordOperators.literalOf? .add = some "+" := by
  intro table
  have obtained : Obtainable table := .insert _ _ (.insert _ _ .cantonese)
  exact ⟨obtained, (offered_of_obtainable obtained).1, by decide +kernel, by decide +kernel,
    by decide +kernel⟩

end CantoScan.Proofs.FurtherSpellings
