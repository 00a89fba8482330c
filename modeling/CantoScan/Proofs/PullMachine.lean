import CantoScan.Token

/-! A machine that gives out the tokens of a source on request or as a sequence. It knows all tokens and
keeps only how many of them it has given out and whether the sequence is finished. -/

namespace CantoScan.Proofs.PullMachine

inductive Call where
  | take
  | next
  | takeAll
  | rest
  | isAtEnd
  deriving DecidableEq

inductive Answer where
  | token (value : Token)
  | item (value : Option Token)
  | tokens (values : List Token)
  | flag (value : Bool)
  deriving DecidableEq

def Answer.given : Answer → List Token
  | .token value => [value]
  | .item value => value.toList
  | .tokens values => values
  | .flag _ => []

/-- The tokens that a call on the sequence hands out; only these are subject to its end. -/
def walked : Call × Answer → List Token
  | (.next, answer) | (.rest, answer) => answer.given
  | _ => []

/-- The tokens of a source. Only the last one marks the end. -/
structure Stream where
  inner : List Token
  last : Token
  unended : ∀ token ∈ inner, token.isEnd = false
  ended : last.isEnd = true

namespace Stream

/-- What is given out from an index on. -/
def remaining (stream : Stream) (index : Nat) : List Token :=
  stream.inner.drop index ++ [stream.last]

variable {stream : Stream} {index : Nat}

theorem unended_of_getElem? {token : Token} (found : stream.inner[index]? = some token) :
    token.isEnd = false :=
  stream.unended token (List.mem_of_getElem? found)

theorem remaining_of_getElem? {token : Token} (found : stream.inner[index]? = some token) :
    stream.remaining index = token :: stream.remaining (index + 1) := by
  obtain ⟨inside, rfl⟩ := List.getElem?_eq_some_iff.mp found
  rw [remaining, List.drop_eq_getElem_cons inside]
  rfl

theorem remaining_of_length_le (behind : stream.inner.length ≤ index) :
    stream.remaining index = [stream.last] := by
  rw [remaining, List.drop_eq_nil_of_le behind]
  rfl

theorem length_le_of_remaining {token : Token} (single : stream.remaining index = [token]) :
    stream.inner.length ≤ index := by
  have left := congrArg List.length single
  simp only [remaining, List.length_append, List.length_drop, List.length_singleton] at left
  omega

private theorem filter_remaining (stream : Stream) (index : Nat) :
    (stream.remaining index).filter (!·.isEnd) = stream.inner.drop index := by
  have inner : (stream.inner.drop index).filter (!·.isEnd) = stream.inner.drop index := by
    apply List.filter_eq_self.mpr
    intro token member
    simp [stream.unended token (List.mem_of_mem_drop member)]
  rw [remaining, List.filter_append, inner]
  simp [stream.ended]

private theorem countP_remaining (stream : Stream) (index : Nat) :
    (stream.remaining index).countP Token.isEnd = 1 := by
  have inner : (stream.inner.drop index).countP Token.isEnd = 0 := by
    apply List.countP_eq_zero.mpr
    intro token member
    simp [stream.unended token (List.mem_of_mem_drop member)]
  rw [remaining, List.countP_append, inner]
  simp [stream.ended]

end Stream

structure Stage where
  index : Nat
  finished : Bool
  deriving DecidableEq

/-- One call. Asking for the end may be denied while blanks are left, so the stage only bounds its answer. -/
inductive Allows (stream : Stream) (stage : Stage) : Call → Answer → Stage → Prop where
  | take {token : Token} :
      stream.inner[stage.index]? = some token →
      Allows stream stage .take (.token token) { stage with index := stage.index + 1 }
  | takeLast :
      stream.inner.length ≤ stage.index → Allows stream stage .take (.token stream.last) stage
  | next {token : Token} :
      stage.finished = false → stream.inner[stage.index]? = some token →
      Allows stream stage .next (.item (some token)) { stage with index := stage.index + 1 }
  | nextLast :
      stage.finished = false → stream.inner.length ≤ stage.index →
      Allows stream stage .next (.item (some stream.last)) { stage with finished := true }
  | nextNone : stage.finished = true → Allows stream stage .next (.item none) stage
  | takeAll :
      Allows stream stage .takeAll (.tokens (stream.remaining stage.index))
        { stage with index := stream.inner.length }
  | rest :
      stage.finished = false →
      Allows stream stage .rest (.tokens (stream.remaining stage.index)) ⟨stream.inner.length, true⟩
  | restNone : stage.finished = true → Allows stream stage .rest (.tokens []) stage
  | isAtEnd {value : Bool} :
      (value = true → stage.index = stream.inner.length) →
      Allows stream stage .isAtEnd (.flag value) stage

inductive Run (stream : Stream) : Stage → List (Call × Answer) → Stage → Prop where
  | nil {stage : Stage} : Run stream stage [] stage
  | cons {stage middle after : Stage} {call : Call} {answer : Answer} {trace : List (Call × Answer)} :
      Allows stream stage call answer middle → Run stream middle trace after →
      Run stream stage ((call, answer) :: trace) after

variable {stream : Stream} {stage after : Stage}

theorem Allows.unique {call : Call} {answer other : Answer} {later : Stage}
    (first : Allows stream stage call answer after) (second : Allows stream stage call other later) :
    after = later ∧ (call ≠ .isAtEnd → answer = other) := by
  have apart : ∀ token, stream.inner[stage.index]? = some token →
      ¬ stream.inner.length ≤ stage.index := by
    intro token found
    have inside := (List.getElem?_eq_some_iff.mp found).1
    omega
  cases first with
  | take found =>
    cases second with
    | take same => exact ⟨rfl, fun _ => by simp_all⟩
    | takeLast behind => exact absurd behind (apart _ found)
  | takeLast behind =>
    cases second with
    | take found => exact absurd behind (apart _ found)
    | takeLast => exact ⟨rfl, fun _ => rfl⟩
  | next unfinished found =>
    cases second with
    | next _ same => exact ⟨rfl, fun _ => by simp_all⟩
    | nextLast _ behind => exact absurd behind (apart _ found)
    | nextNone finished => simp_all
  | nextLast unfinished behind =>
    cases second with
    | next _ found => exact absurd behind (apart _ found)
    | nextLast => exact ⟨rfl, fun _ => rfl⟩
    | nextNone finished => simp_all
  | nextNone | takeAll | rest | restNone | isAtEnd => cases second <;> simp_all

private theorem given_of_allows {call : Call} {answer : Answer} (allowed : Allows stream stage call answer after) :
    stream.inner.take stage.index ++ answer.given.filter (!·.isEnd) = stream.inner.take after.index := by
  cases allowed with
  | take found | next _ found =>
    simp [Answer.given, Stream.unended_of_getElem? found, List.take_add_one, found]
  | takeLast | nextLast => simp [Answer.given, stream.ended]
  | nextNone | restNone | isAtEnd => simp [Answer.given]
  | takeAll | rest => simp [Answer.given, stream.filter_remaining]

/-- The sequence is finished by the call that gives its last token, and by no other. -/
theorem walked_of_allows {call : Call} {answer : Answer} (allowed : Allows stream stage call answer after) :
    stage.finished.toNat + (walked (call, answer)).countP Token.isEnd = after.finished.toNat := by
  cases allowed with
  | take | takeLast | takeAll | isAtEnd => simp [walked]
  | next _ found => simp [walked, Answer.given, Stream.unended_of_getElem? found]
  | nextLast unfinished => simp [walked, Answer.given, stream.ended, unfinished]
  | rest unfinished => simp [walked, Answer.given, stream.countP_remaining, unfinished]
  | nextNone | restNone => simp [walked, Answer.given]

theorem given_of_run {trace : List (Call × Answer)} (run : Run stream stage trace after) :
    stream.inner.take stage.index ++ (trace.flatMap (·.2.given)).filter (!·.isEnd) =
      stream.inner.take after.index := by
  induction run with
  | nil => simp
  | cons allowed _ ih =>
    rw [← ih, ← given_of_allows allowed, List.flatMap_cons, List.filter_append, List.append_assoc]

theorem walked_of_run {trace : List (Call × Answer)} (run : Run stream stage trace after) :
    stage.finished.toNat + (trace.flatMap walked).countP Token.isEnd = after.finished.toNat := by
  induction run with
  | nil => simp
  | cons allowed _ ih =>
    rw [← ih, ← walked_of_allows allowed, List.flatMap_cons, List.countP_append, Nat.add_assoc]

end CantoScan.Proofs.PullMachine
