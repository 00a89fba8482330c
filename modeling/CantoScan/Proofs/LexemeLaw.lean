import CantoScan.Proofs.SourceRuns
import CantoScan.Proofs.TableRules
import CantoScan.Scan.Lexeme

/-! The priority of the rules by which the text at an offset is read, told by offsets alone. The rules
exclude one another, so they fix kind and extent of a lexeme, and scanning follows them. -/

namespace CantoScan.Proofs.LexemeLaw
open SourceRuns TableRules

/-- Whether the comment marker stands at an offset. -/
def commentAt (table : SymbolTable) (source : List Char) (start : Nat) : Bool :=
  source[start]?.any fun c => source[start + 1]?.any (table.startsComment c)

def doubleAt (table : SymbolTable) (source : List Char) (start : Nat) : Option Kind :=
  source[start]?.bind fun c => source[start + 1]?.bind (table.double c)

def singleAt (table : SymbolTable) (source : List Char) (start : Nat) : Option Kind :=
  source[start]?.bind table.single

def digitAt (source : List Char) (start : Nat) : Bool := source[start]?.any Char.isDigit

def wordAt (source : List Char) (start : Nat) : Bool := source[start]?.any isWordCharacter

/-- The kinds that a rule gives by itself, without a literal. -/
def ownKinds : List Kind := [.comment, .number, .identifier, .invalid]

/-- The kind and the end of what begins at an offset. Each rule applies only where none before it does. -/
inductive Rule (table : SymbolTable) (source : List Char) (start : Nat) : Kind → Nat → Prop where
  | comment {stop : Nat} :
      commentAt table source start = true → LongestRun (· ≠ '\n') source start stop →
      Rule table source start .comment stop
  | double {kind : Kind} :
      commentAt table source start = false → doubleAt table source start = some kind →
      Rule table source start kind (start + 2)
  | single {kind : Kind} :
      commentAt table source start = false → doubleAt table source start = none →
      singleAt table source start = some kind → Rule table source start kind (start + 1)
  | number {stop : Nat} :
      commentAt table source start = false → doubleAt table source start = none →
      singleAt table source start = none → digitAt source start = true →
      LongestRun Char.isDigit source start stop → Rule table source start .number stop
  | identifier {stop : Nat} :
      commentAt table source start = false → doubleAt table source start = none →
      singleAt table source start = none → digitAt source start = false →
      wordAt source start = true → LongestRun isWordCharacter source start stop →
      Rule table source start .identifier stop
  | invalid :
      commentAt table source start = false → doubleAt table source start = none →
      singleAt table source start = none → digitAt source start = false →
      wordAt source start = false → start < source.length →
      Rule table source start .invalid (start + 1)

namespace Rule
variable {table : SymbolTable} {source : List Char} {start stop : Nat} {kind : Kind}

/-- What begins at an offset has one kind and one end. -/
theorem unique {other : Kind} {last : Nat} (first : Rule table source start kind stop)
    (second : Rule table source start other last) : kind = other ∧ stop = last := by
  cases first with
  | comment marker run =>
    cases second with
    | comment _ same => exact ⟨rfl, run.unique same⟩
    | _ => simp_all
  | number _ _ _ digit run =>
    cases second with
    | number _ _ _ _ same => exact ⟨rfl, run.unique same⟩
    | _ => simp_all
  | identifier _ _ _ digit word run =>
    cases second with
    | identifier _ _ _ _ _ same => exact ⟨rfl, run.unique same⟩
    | _ => simp_all
  | double | single | invalid => cases second <;> simp_all

private theorem kind_or_bound (rule : Rule table source start kind stop) :
    kind ∈ ownKinds ∨
      doubleAt table source start = some kind ∨ singleAt table source start = some kind := by
  cases rule with
  | comment | number | identifier | invalid => exact .inl (by decide)
  | double _ bound => exact .inr (.inl bound)
  | single _ _ bound => exact .inr (.inr bound)

end Rule

theorem doubleAt_eq_some {table : SymbolTable} {source : List Char} {start : Nat} {kind : Kind}
    (bound : doubleAt table source start = some kind) :
    ∃ c d, source[start]? = some c ∧ source[start + 1]? = some d ∧ table.double c d = some kind := by
  obtain ⟨c, first, bound⟩ := Option.bind_eq_some_iff.mp bound
  obtain ⟨d, second, bound⟩ := Option.bind_eq_some_iff.mp bound
  exact ⟨c, d, first, second, bound⟩

theorem singleAt_eq_some {table : SymbolTable} {source : List Char} {start : Nat} {kind : Kind}
    (bound : singleAt table source start = some kind) :
    ∃ c, source[start]? = some c ∧ table.single c = some kind :=
  Option.bind_eq_some_iff.mp bound

private theorem not_covers_of_lt {first last point : Nat} {rest : List Unicode.Interval}
    (below : point < first) (ordered : first ≤ last) :
    Unicode.covers ((first, last) :: rest) point = false := by
  rw [Unicode.covers, if_pos (by omega)]
  exact decide_eq_false (by omega)

private theorem not_isWordCharacter_of_isDigit {c : Char} (digit : c.isDigit = true) :
    isWordCharacter c = false := by
  have bound : c.toNat ≤ 57 := by
    simp only [Char.isDigit, ge_iff_le, Bool.and_eq_true, decide_eq_true_eq] at digit
    exact digit.2
  -- All digits stand before the first letter, so the search ends at the first interval.
  have letter : Unicode.isAlphabetic c = false := by
    unfold Unicode.isAlphabetic Unicode.alphabeticIntervals
    exact not_covers_of_lt (by omega) (by decide)
  have other : c ≠ '_' := by
    rintro rfl
    cases digit
  simp [isWordCharacter, letter, other]

private theorem wordAt_of_digitAt {source : List Char} {start : Nat} (digit : digitAt source start = true) :
    wordAt source start = false := by
  obtain ⟨c, found, digit⟩ := (Option.any_eq_true _ _).mp digit
  rw [wordAt, found]
  exact not_isWordCharacter_of_isDigit digit

/-- How the kind of what begins at an offset tells which rule applies there. -/
structure KindLaw (table : SymbolTable) (source : List Char) (start : Nat) (kind : Kind) : Prop where
  comment : kind = .comment ↔ commentAt table source start = true
  number : kind = .number ↔ commentAt table source start = false ∧ digitAt source start = true
  identifier : kind = .identifier ↔
    commentAt table source start = false ∧ doubleAt table source start = none ∧
      singleAt table source start = none ∧ wordAt source start = true
  invalid : kind = .invalid ↔
    commentAt table source start = false ∧ doubleAt table source start = none ∧
      singleAt table source start = none ∧ digitAt source start = false ∧ wordAt source start = false
  bound : kind.isScanned = false ↔
    commentAt table source start = false ∧
      (doubleAt table source start = some kind ∨
        doubleAt table source start = none ∧ singleAt table source start = some kind)

private theorem not_mem_ownKinds {kind : Kind} (unscanned : kind.isScanned = false) :
    kind ∉ ownKinds := by
  intro own
  have scanned : ∀ kind ∈ ownKinds, kind.isScanned = true := by decide
  rw [scanned kind own] at unscanned
  cases unscanned

section SoundTable
variable {table : SymbolTable} (sound : Sound table) {source : List Char} {start stop : Nat} {kind : Kind}
include sound

theorem doubleAt_kind (bound : doubleAt table source start = some kind) : kind.isScanned = false := by
  obtain ⟨c, d, _, _, bound⟩ := doubleAt_eq_some bound
  exact sound.double_kind bound

theorem singleAt_kind (bound : singleAt table source start = some kind) : kind.isScanned = false := by
  obtain ⟨c, _, bound⟩ := singleAt_eq_some bound
  exact sound.single_kind bound

theorem rule_kind_ne_end (rule : Rule table source start kind stop) : kind ≠ .endOfInput := by
  rintro rfl
  rcases rule.kind_or_bound with own | double | single
  · revert own
    decide
  · cases doubleAt_kind sound double
  · cases singleAt_kind sound single

private theorem unbound_of_digitAt (digit : digitAt source start = true) :
    doubleAt table source start = none ∧ singleAt table source start = none := by
  obtain ⟨c, found, digit⟩ := (Option.any_eq_true _ _).mp digit
  have reserved : SymbolTable.isReserved c = true := by simp [SymbolTable.isReserved, digit]
  constructor
  · refine Option.eq_none_iff_forall_ne_some.mpr fun kind bound => ?_
    obtain ⟨first, d, place, _, bound⟩ := doubleAt_eq_some bound
    obtain rfl := Option.some.inj (found.symm.trans place)
    simp [sound.double_unreserved bound] at reserved
  · refine Option.eq_none_iff_forall_ne_some.mpr fun kind bound => ?_
    obtain ⟨first, place, bound⟩ := singleAt_eq_some bound
    obtain rfl := Option.some.inj (found.symm.trans place)
    simp [sound.single_unreserved bound] at reserved

theorem kindLaw_of_rule (rule : Rule table source start kind stop) : KindLaw table source start kind := by
  have unbound : digitAt source start = true → _ := unbound_of_digitAt sound
  have wordless : digitAt source start = true → _ := wordAt_of_digitAt
  -- The conditions of the rule that applies decide every equivalence; a literal gives no kind of a rule.
  cases rule with
  | comment marker _ => constructor <;> simp [marker, Kind.isScanned]
  | double plain bound =>
    have unscanned := doubleAt_kind sound bound
    have other := not_mem_ownKinds unscanned
    constructor <;> simp_all [ownKinds]
  | single plain none bound =>
    have unscanned := singleAt_kind sound bound
    have other := not_mem_ownKinds unscanned
    constructor <;> simp_all [ownKinds]
  | number | identifier | invalid => constructor <;> simp_all [Kind.isScanned]

theorem lineFeed_not_mem_of_rule (rule : Rule table source start kind stop)
    (visible : source[start]? ≠ some '\n') : '\n' ∉ source.extract start stop := by
  have reserved : SymbolTable.isReserved '\n' = true := by decide
  intro inside
  cases rule with
  | comment _ run => simpa using run.members _ inside
  | number _ _ _ _ run => exact absurd (run.members _ inside) (by decide)
  | identifier _ _ _ _ _ run => exact absurd (run.members _ inside) (by decide)
  | double _ bound =>
    obtain ⟨c, d, first, second, bound⟩ := doubleAt_eq_some bound
    have plain := sound.double_unreserved bound
    simp only [extract_two first second, List.mem_cons, List.not_mem_nil, or_false] at inside
    rcases inside with rfl | rfl
    · simp [reserved] at plain
    · simp [reserved] at plain
  | single _ _ bound =>
    obtain ⟨c, first, _⟩ := singleAt_eq_some bound
    rw [extract_one first, List.mem_singleton] at inside
    exact visible (inside ▸ first)
  | invalid _ _ _ _ _ within =>
    have first := List.getElem?_eq_getElem within
    rw [extract_one first, List.mem_singleton] at inside
    exact visible (inside ▸ first)

end SoundTable

section Front
variable (table : SymbolTable) (before rest : List Char) (c : Char)

theorem getElem?_front : (before ++ c :: rest)[before.length]? = some c := by simp

private theorem getElem?_behind_front : (before ++ c :: rest)[before.length + 1]? = rest.head? := by
  rw [getElem?_length_append, List.getElem?_cons_succ, List.head?_eq_getElem?]

private theorem commentAt_front :
    commentAt table (before ++ c :: rest) before.length = table.opensComment c rest := by
  rw [commentAt, getElem?_front, getElem?_behind_front]
  rfl

/-- Asking first whether any literal begins with the character makes no difference. -/
theorem doubleAt_front :
    doubleAt table (before ++ c :: rest) before.length = table.opensDouble c rest := by
  rw [doubleAt, getElem?_front, getElem?_behind_front, SymbolTable.opensDouble_eq]
  rfl

private theorem singleAt_front : singleAt table (before ++ c :: rest) before.length = table.single c := by
  rw [singleAt, getElem?_front]
  rfl

private theorem digitAt_front : digitAt (before ++ c :: rest) before.length = c.isDigit := by
  rw [digitAt, getElem?_front]
  rfl

private theorem wordAt_front : wordAt (before ++ c :: rest) before.length = isWordCharacter c := by
  rw [wordAt, getElem?_front]
  rfl

private theorem longestRun_run (kind : Kind) {member : Char → Bool} (first : member c = true) :
    LongestRun member (before ++ c :: rest) before.length
      (before.length + (Lexeme.run kind member c rest).text.length) := by
  have run := LongestRun.of_takeWhile member before (c :: rest)
  rwa [List.takeWhile_cons_of_pos first] at run

/-- Scanning follows the rules, whatever the table binds. -/
theorem rule_lexeme (visible : c ≠ '\n') :
    Rule table (before ++ c :: rest) before.length (table.lexeme c rest).kind
      (before.length + (table.lexeme c rest).text.length) := by
  have comment := commentAt_front table before rest c
  have double := doubleAt_front table before rest c
  have single := singleAt_front table before rest c
  have digit := digitAt_front before rest c
  have word := wordAt_front before rest c
  unfold SymbolTable.lexeme
  split
  next opens =>
    exact .comment (comment.trans opens) (longestRun_run before rest c .comment (by simpa))
  next opens =>
    replace comment := comment.trans (Bool.not_eq_true _ ▸ opens)
    split
    next kind bound =>
      rw [SymbolTable.opensDouble_eq] at bound
      cases rest with
      | nil => cases bound
      | cons d rest => exact .double comment (double.trans (SymbolTable.opensDouble_eq .. ▸ bound))
    next unbound =>
      replace double := double.trans unbound
      split
      next kind bound => exact .single comment double (single.trans bound)
      next free =>
        replace single := single.trans free
        split
        next numeric =>
          exact .number comment double single (digit.trans numeric)
            (longestRun_run before rest c .number numeric)
        next numeric =>
          replace digit := digit.trans (Bool.not_eq_true _ ▸ numeric)
          split
          next letter =>
            exact .identifier comment double single digit (word.trans letter)
              (longestRun_run before rest c .identifier letter)
          next letter =>
            exact .invalid comment double single digit (word.trans (Bool.not_eq_true _ ▸ letter))
              (by simp)

end Front

end CantoScan.Proofs.LexemeLaw
