import CantoScan.Proofs.SessionLines
import CantoScan.Proofs.TableLoading

/-! What a session answers to the bytes of its input. Its listings stand between prompts, line after
line, up to the end or up to the first line that is no text; and over a whole text they show the tokens
that scanning the text at once gives. -/

namespace CantoScan.Proofs.SessionTranscript
open Command Text Utf8Encoding LineCutting SessionLines TableRules TableEntries TableLoading

def replies (table : SymbolTable) (listing : Listing) (lines : List String) : String :=
  String.join (lines.map fun line => Listing.textOf (told table listing line) ++ ">> ")

/-- Each line of a source is told as what the whole source has on it. -/
def SameTokens (table : SymbolTable) (listing : Listing) (source : String) (lines : List String) : Prop :=
  ∀ n, (onLine (n + 1) (told table listing source)).map (retold source.toList) =
    lines[n]?.elim [] fun line => (told table listing line).map shown

/-- What comes of an input that is cut into lines. -/
inductive Answered (table : SymbolTable) (listing : Listing) (input : List UInt8) (log : String) :
    List (List UInt8) → Outcome → Prop where
  | whole {source : String} {lines : List String} :
      input = bytesOf source → SameTokens table listing source lines →
      Answered table listing input log (lines.map bytesOf)
        ⟨0, ">> " ++ replies table listing lines ++ "\n", log⟩
  | broken {lines : List String} {line : List UInt8} {later : List (List UInt8)} :
      (∀ source, line ≠ bytesOf source) →
      Answered table listing input log (lines.map bytesOf ++ line :: later)
        ⟨2, ">> " ++ replies table listing lines,
          log ++ "Error: reading standard input: stream did not contain valid UTF-8\n"⟩

private theorem readable_cases (cut : List (List UInt8)) :
    cut = (Transcript.readable cut).map bytesOf ∨
      ∃ line later, (∀ source, line ≠ bytesOf source) ∧
        cut = (Transcript.readable cut).map bytesOf ++ line :: later := by
  induction cut with
  | nil => exact .inl rfl
  | cons line cut ih =>
    cases decoded : decode? line with
    | none =>
      refine .inr ⟨line, cut, ?_, by simp [Transcript.readable, decoded]⟩
      intro source text
      rw [decode?_eq_some_iff.mpr text] at decoded
      cases decoded
    | some source =>
      have text := decode?_eq_some_iff.mp decoded
      have first : Transcript.readable (line :: cut) = source :: Transcript.readable cut := by
        simp only [Transcript.readable, decoded]
      rw [first, List.map_cons, ← text]
      rcases ih with all | ⟨bad, later, invalid, same⟩
      · exact .inl (congrArg _ all)
      · exact .inr ⟨bad, later, invalid, congrArg _ same⟩

private theorem sameTokens_of_cut {table : SymbolTable} (sound : Sound table) (listing : Listing)
    {input : List UInt8} {lines : List String}
    (division : Lines lineFeed carriageReturn input (lines.map bytesOf)) :
    ∃ source, input = bytesOf source ∧ SameTokens table listing source lines := by
  have texts : lines.map bytesOf = (lines.map String.toList).map encode := by
    rw [List.map_map]
    rfl
  rw [texts] at division
  obtain ⟨whole, encoded, division⟩ := lines_of_encoded division
  refine ⟨String.ofList whole, by rw [bytesOf, String.toList_ofList, encoded], ?_⟩
  rw [← String.toList_ofList (l := whole)] at division
  exact retold_told sound listing division

private theorem map_reply {listing : Listing} (text : listing.json = false) (table : SymbolTable)
    (lines : List String) :
    String.join (lines.map (Transcript.reply table listing)) = replies table listing lines := by
  have same : Transcript.reply table listing =
      fun line => Listing.textOf (told table listing line) ++ ">> " := by
    funext line
    rw [Transcript.reply, Listing.render, text]
    rfl
  rw [same, replies]

private theorem output_ofInput {listing : Listing} (text : listing.json = false) (table : SymbolTable)
    (input : List UInt8) :
    (Transcript.ofInput table listing input).output =
      ">> " ++ replies table listing (Transcript.readable (lines input)) ++
        if (Transcript.readable (lines input)).length = (lines input).length then "\n" else "" := by
  rw [← map_reply text]
  rfl

private theorem complete_ofInput (table : SymbolTable) (listing : Listing) (input : List UInt8) :
    (Transcript.ofInput table listing input).complete =
      decide ((Transcript.readable (lines input)).length = (lines input).length) :=
  rfl

private theorem result_runSession (surroundings : Surroundings) (table : SymbolTable) (listing : Listing) :
    (runSession surroundings table listing).result =
      let transcript := Transcript.ofInput table listing surroundings.input
      .ok (if transcript.complete then ⟨0, transcript.output, ""⟩
        else .ofFailure transcript.output (.inputUnread .notText)) := by
  simp only [runSession, Logged.result_bind, Logged.result_record]
  split <;> simp [Except.bind, *]

section Run
variable {surroundings : Surroundings} {options : Options} {table : SymbolTable}

private theorem run_session_eq (chosen : (chosenTable surroundings options).result = .ok table) :
    run surroundings .session options =
      let log := Log.render surroundings.threshold (perform surroundings .session options).records
      let transcript := Transcript.ofInput table options.listing surroundings.input
      if transcript.complete then ⟨0, transcript.output, log⟩
      else ⟨2, transcript.output,
        log ++ "Error: reading standard input: stream did not contain valid UTF-8\n"⟩ := by
  have result : (perform surroundings .session options).result =
      (runSession surroundings table options.listing).result := by
    rw [perform, Logged.result_bind, chosen]
    rfl
  have message : (Outcome.ofFailure "" (.inputUnread .notText)).stderr =
      "Error: reading standard input: stream did not contain valid UTF-8\n" := by decide
  rw [run, result, result_runSession]
  dsimp only
  split
  · simp
  · rw [← message]
    rfl

/-- In text mode, and under any table that a command works with, a session cuts its input into lines in
the one way there is. It lists the tokens of each, up to a line that is no text; where there is none, it
lists what scanning the whole input gives, line by line. -/
theorem run_session (text : options.json = false)
    (chosen : (chosenTable surroundings options).result = .ok table) :
    (∀ cut, Lines lineFeed carriageReturn surroundings.input cut ↔ cut = lines surroundings.input) ∧
      Answered table options.listing surroundings.input
        (Log.render surroundings.threshold (perform surroundings .session options).records)
        (lines surroundings.input) (run surroundings .session options) := by
  refine ⟨fun _ => lines_iff, ?_⟩
  have sound := (chosenTable_obtainable chosen).sound
  have division : Lines lineFeed carriageReturn surroundings.input (lines surroundings.input) :=
    lines_iff.mpr rfl
  have plain : options.listing.json = false := text
  rw [run_session_eq chosen]
  simp only [output_ofInput plain, complete_ofInput, decide_eq_true_eq]
  have read := readable_cases (lines surroundings.input)
  generalize Transcript.readable (lines surroundings.input) = sources at read ⊢
  rcases read with all | ⟨line, later, invalid, same⟩
  · have complete : sources.length = (lines surroundings.input).length := by
      rw [all, List.length_map]
    rw [all] at division
    obtain ⟨source, whole, tokens⟩ := sameTokens_of_cut sound options.listing division
    rw [if_pos complete, if_pos complete, all]
    exact .whole whole tokens
  · have incomplete : sources.length ≠ (lines surroundings.input).length := by
      rw [same, List.length_append, List.length_map, List.length_cons]
      omega
    rw [if_neg incomplete, if_neg incomplete, same, String.append_empty]
    exact .broken invalid

end Run

theorem run_session_returns :
    let input := bytesOf "大過 1//a\r\r\n\r\n x /\n/b//c\r"
    let surroundings : Surroundings := ⟨fun _ => .error .missing, input, 5⟩
    let options : Options := { ascii := true, skipComments := false }
    let table := SymbolTable.cantonese.withAsciiPunctuation
    options.json = false ∧ (chosenTable surroundings options).result = .ok table ∧
      (∀ cut, Lines lineFeed carriageReturn input cut ↔ cut = lines input) ∧
        Answered table options.listing input
          (Log.render 5 (perform surroundings .session options).records)
          (lines input) (run surroundings .session options) ∧
      (run surroundings .session options).stdout =
        ">> GreaterThan(\"大過\") @1:1\nNumber(\"1\") @1:4\nComment(\"//a\\r\") @1:5\n" ++
          ">> >> Identifier(\"x\") @1:2\nDivide(\"/\") @1:4\n" ++
          ">> Divide(\"/\") @1:1\nIdentifier(\"b\") @1:2\nComment(\"//c\\r\") @1:3\n>> \n" := by
  intro input surroundings options table
  have chosen : (chosenTable surroundings options).result = .ok table :=
    (neverRefused surroundings options).builtin rfl
  obtain ⟨cut, answered⟩ := run_session rfl chosen
  exact ⟨rfl, chosen, cut, answered, by decide +kernel⟩

example : (run ⟨fun _ => .error .missing, bytesOf "a\r\n//b\r\r\n\nc", 0⟩ .session {}).stdout =
    ">> Identifier(\"a\") @1:1\n>> Comment(\"//b\\r\") @1:1\n>> >> Identifier(\"c\") @1:1\n>> \n" := by
  decide +kernel

end CantoScan.Proofs.SessionTranscript
