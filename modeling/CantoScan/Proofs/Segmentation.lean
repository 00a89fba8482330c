import CantoScan.Proofs.Tiling

/-! The rules for single lexemes determine all tokens. Every token is read by the rule that applies at
its offset, and no other segments fill the source by these rules. -/

namespace CantoScan.Proofs.Segmentation
open SourceRuns TableRules LexemeLaw ScanReading Tiling

structure Lawful (table : SymbolTable) (source : List Char) (token : Token) : Prop where
  rule : Rule table source token.span.start token.kind token.span.stop
  fixed : ∀ kind stop, Rule table source token.span.start kind stop →
    kind = token.kind ∧ stop = token.span.stop
  literal : token.literal.toList = source.extract token.span.start token.span.stop
  length : token.literal.toList.length = token.span.stop - token.span.start
  kind : KindLaw table source token.span.start token.kind

/-- Under every table that can be made, every token but the last is read by the rules in their order;
to ask first whether any literal begins with a character changes none of the answers. -/
theorem tokenize_lawful {table : SymbolTable} (obtained : Obtainable table) (source : String)
    {token : Token} (member : token ∈ table.tokenize source) (inner : token.kind ≠ .endOfInput) :
    Lawful table source.toList token ∧
      ∀ c rest, table.opensDouble c rest = rest.head?.bind (table.double c) := by
  obtain ⟨_, _, stand⟩ := tokenize_tiles obtained.sound source
  have stands := stand token (mem_innerTokens.mpr ⟨member, inner⟩)
  refine ⟨⟨stands.rule, ?_, stands.literal, stands.length, ?_⟩, table.opensDouble_eq⟩
  · intro kind stop rule
    exact rule.unique stands.rule
  · exact kindLaw_of_rule obtained.sound stands.rule

theorem tokenize_lawful_greaterThan :
    let token : Token := ⟨.greaterThan, "大過", ⟨7, 9, 1, 8⟩⟩
    token ∈ SymbolTable.cantonese.tokenize "大 a大過大 大過//。x" ∧ token.kind ≠ .endOfInput ∧
      Lawful .cantonese "大 a大過大 大過//。x".toList token := by
  intro token
  have member : token ∈ SymbolTable.cantonese.tokenize "大 a大過大 大過//。x" := by decide +kernel
  have inner : token.kind ≠ .endOfInput := by decide
  exact ⟨member, inner, (tokenize_lawful .cantonese _ member inner).1⟩

private theorem tiles_unique {table : SymbolTable} {source : List Char} {offset : Nat}
    {first second : List Segment} (tiles : Tiles source offset first) (others : Tiles source offset second)
    (ruled : ∀ segment ∈ first, Rule table source segment.start segment.kind segment.stop)
    (ruledToo : ∀ segment ∈ second, Rule table source segment.start segment.kind segment.stop) :
    first = second := by
  induction tiles generalizing second with
  | done run =>
    cases others with
    | done _ => rfl
    | segment otherRun nonempty within _ =>
      have behind := run.unique otherRun
      omega
  | @segment offset segment segments run nonempty within tiles ih =>
    cases others with
    | done otherRun =>
      have behind := run.unique otherRun
      omega
    | @segment _ other others otherRun _ _ otherTiles =>
      obtain ⟨rule, rules⟩ := List.forall_mem_cons.mp ruled
      obtain ⟨otherRule, otherRules⟩ := List.forall_mem_cons.mp ruledToo
      -- The blanks lead to the same offset, and there the rules allow only one segment.
      have start : segment.start = other.start := run.unique otherRun
      obtain ⟨kind, stop⟩ := rule.unique (start ▸ otherRule)
      have same : segment = other := by
        cases segment
        cases other
        simp_all
      subst same
      rw [ih otherTiles rules otherRules]

structure Filling (table : SymbolTable) (source : List Char) (segments : List Segment) : Prop where
  tiles : Tiles source 0 segments
  ruled : ∀ segment ∈ segments, Rule table source segment.start segment.kind segment.stop

private theorem filling_innerTokens {table : SymbolTable} (sound : Sound table) (source : String) :
    Filling table source.toList ((innerTokens table source).map segmentOf) := by
  obtain ⟨_, tiles, stand⟩ := tokenize_tiles sound source
  refine ⟨tiles, ?_⟩
  intro segment member
  obtain ⟨token, inside, rfl⟩ := List.mem_map.mp member
  exact (stand token inside).rule

/-- Under every table that can be made, a source has exactly one filling by the rules: the kinds and
stretches of its tokens. -/
theorem filling_iff {table : SymbolTable} (obtained : Obtainable table) (source : String)
    (segments : List Segment) :
    Filling table source.toList segments ↔
      segments = ((table.tokenize source).filter (!·.isEnd)).map segmentOf := by
  have scanned := filling_innerTokens obtained.sound source
  constructor
  · intro filled
    exact tiles_unique filled.tiles scanned.tiles filled.ruled scanned.ruled
  · rintro rfl
    exact scanned

theorem filling_iff_greaterThan :
    Obtainable .cantonese ∧
      Filling .cantonese "a 大過".toList [⟨.identifier, 0, 1⟩, ⟨.greaterThan, 2, 4⟩] :=
  ⟨.cantonese, (filling_iff .cantonese "a 大過" _).mpr (by decide +kernel)⟩

end CantoScan.Proofs.Segmentation
