import CantoScan.Proofs.DigitLists
import CantoScan.Text.Quoted

/-! Texts that tell where they end. A text between quotation marks does, since no character inside begins
with the mark, and so does what such texts are put together to; each can be read back whatever follows. -/

namespace CantoScan.Proofs.QuotedTexts
open Text DigitLists

section Delimiting
variable {α β γ : Type} {key : α → β} {write : α → List Char}

/-- A way of writing that tells where it ends: whatever follows, the key can be read and so can the rest. -/
def Delimited (key : α → β) (write : α → List Char) : Prop :=
  ∀ ⦃a b rest other⦄, write a ++ rest = write b ++ other → key a = key b ∧ rest = other

theorem Delimited.comp (delimited : Delimited key write) (f : γ → α) :
    Delimited (fun a => key (f a)) fun a => write (f a) :=
  fun _ _ _ _ same => delimited same

theorem Delimited.behind (text : List Char) (delimited : Delimited key write) :
    Delimited key fun a => text ++ write a := by
  intro a b rest other same
  rw [List.append_assoc, List.append_assoc] at same
  exact delimited (List.append_cancel_left same)

theorem Delimited.append {key' : α → γ} {write' : α → List Char} (first : Delimited key write)
    (second : Delimited key' write') :
    Delimited (fun a => (key a, key' a)) fun a => write a ++ write' a := by
  intro a b rest other same
  rw [List.append_assoc, List.append_assoc] at same
  obtain ⟨left, same⟩ := first same
  obtain ⟨right, same⟩ := second same
  exact ⟨Prod.ext left right, same⟩

theorem append_cons_inj {stop : Char} {first second rest other : List Char} (absent : stop ∉ first)
    (absentToo : stop ∉ second) (same : first ++ stop :: rest = second ++ stop :: other) :
    first = second ∧ rest = other := by
  induction first generalizing second with
  | nil =>
    cases second with
    | nil => exact ⟨rfl, (List.cons.inj same).2⟩
    | cons c second => exact absurd (List.cons.inj same).1 (List.ne_of_not_mem_cons absentToo)
  | cons c first ih =>
    cases second with
    | nil => exact absurd (List.cons.inj same).1.symm (List.ne_of_not_mem_cons absent)
    | cons d second =>
      obtain ⟨rfl, later⟩ := List.cons.inj same
      obtain ⟨rfl, behind⟩ :=
        ih (List.not_mem_of_not_mem_cons absent) (List.not_mem_of_not_mem_cons absentToo) later
      exact ⟨rfl, behind⟩

theorem delimited_stop {stop : Char} (injective : ∀ a b, write a = write b → key a = key b)
    (absent : ∀ a, stop ∉ write a) : Delimited key fun a => write a ++ [stop] := by
  intro a b rest other same
  rw [List.append_assoc, List.append_assoc] at same
  obtain ⟨written, same⟩ := append_cons_inj (absent a) (absent b) same
  exact ⟨injective a b written, same⟩

/-- Nothing that is written stands at the beginning of a text. -/
def Stops (write : α → List Char) (text : List Char) : Prop := ∀ a rest, write a ++ rest ≠ text

/-- What is written one after another can be read one after another, up to where nothing more is written. -/
theorem Delimited.flatMap (delimited : Delimited key write) {first second : List α} {rest other : List Char}
    (stops : Stops write rest) (stopsToo : Stops write other)
    (same : first.flatMap write ++ rest = second.flatMap write ++ other) :
    first.map key = second.map key ∧ rest = other := by
  induction first generalizing second with
  | nil =>
    cases second with
    | nil => exact ⟨rfl, same⟩
    | cons b second =>
      rw [List.flatMap_cons, List.append_assoc] at same
      exact absurd same.symm (stops b _)
  | cons a first ih =>
    rw [List.flatMap_cons, List.append_assoc] at same
    cases second with
    | nil => exact absurd same (stopsToo a _)
    | cons b second =>
      rw [List.flatMap_cons, List.append_assoc] at same
      obtain ⟨head, same⟩ := delimited same
      obtain ⟨tail, same⟩ := ih same
      exact ⟨by rw [List.map_cons, List.map_cons, head, tail], same⟩

end Delimiting

theorem delimited_toDigits {base : Nat} (large : 1 < base) (small : base ≤ 16) {stop : Char}
    (other : stop ∉ digitList) : Delimited id fun n => Nat.toDigits base n ++ [stop] := by
  refine delimited_stop (fun m n same => ?_) (not_mem_toDigits large small other)
  rw [id, id, ← numberOf_toDigits large small m, same, numberOf_toDigits large small]

section Quoting
variable {mark c : Char}

/-- The marks that a text or a character stands between. -/
def Quotation (mark : Char) : Prop := mark = '"' ∨ mark = '\''

/-- The characters that are written as a backslash and a letter. -/
def letters (mark : Char) : List (Char × Char) :=
  [('0', '\x00'), ('t', '\t'), ('r', '\r'), ('n', '\n'), ('\\', '\\'), (mark, mark)]

/-- The three ways of writing a character between quotation marks. -/
inductive Escaped (mark c : Char) : List Char → Prop where
  | letter {letter : Char} : (letter, c) ∈ letters mark → Escaped mark c ['\\', letter]
  | raw : c ∉ (letters mark).map Prod.snd → Escaped mark c [c]
  | codePoint : Escaped mark c (escapeCodePoint c)

private theorem escaped_escape (mark c : Char) : Escaped mark c (escape mark c) := by
  unfold escape
  -- Four characters have letters of their own.
  iterate 4
    split
    next equal =>
      subst equal
      exact .letter (by simp [letters])
  split
  next special =>
    rcases special with rfl | rfl
    · exact .letter (by simp [letters])
    · exact .letter (by simp [letters])
  next other =>
    obtain ⟨notBackslash, notMark⟩ := not_or.mp other
    split
    · exact .raw (by simp [letters, *])
    · exact .codePoint

def readChar? (mark : Char) : List Char → Option (Char × List Char)
  | '\\' :: 'u' :: '{' :: text =>
    some (Char.ofNat (numberOf 16 (text.takeWhile (· ≠ '}'))), (text.dropWhile (· ≠ '}')).tail)
  | '\\' :: letter :: rest => ((letters mark).lookup letter).map (·, rest)
  | c :: rest => some (c, rest)
  | [] => none

private theorem lookup_letters (quotation : Quotation mark) :
    ∀ entry ∈ letters mark, entry.1 ≠ 'u' ∧ (letters mark).lookup entry.1 = some entry.2 := by
  obtain rfl | rfl := quotation <;> decide

private theorem readChar?_escaped (quotation : Quotation mark) {text : List Char} (escaped : Escaped mark c text)
    (rest : List Char) : readChar? mark (text ++ rest) = some (c, rest) := by
  cases escaped with
  | letter member =>
    obtain ⟨other, found⟩ := lookup_letters quotation _ member
    simp [readChar?, other, found]
  | raw plain =>
    have other : c ≠ '\\' := by
      rintro rfl
      exact plain (by simp [letters])
    simp [readChar?, other]
  | codePoint =>
    have digits : ∀ d ∈ Nat.toDigits 16 c.toNat, decide (d ≠ '}') = true := by
      intro d member
      have absent := not_mem_toDigits (by decide : 1 < 16) (by decide) (by decide : '}' ∉ digitList) c.toNat
      exact decide_eq_true fun equal => absent (equal ▸ member)
    have text : escapeCodePoint c ++ rest = '\\' :: 'u' :: '{' :: (Nat.toDigits 16 c.toNat ++ '}' :: rest) := by
      simp [escapeCodePoint]
    rw [text, readChar?, List.takeWhile_append_of_pos digits, List.dropWhile_append_of_pos digits,
      List.takeWhile_cons_of_neg (by decide), List.dropWhile_cons_of_neg (by decide), List.append_nil,
      List.tail_cons, numberOf_toDigits (by decide) (by decide), Char.ofNat_toNat]

private theorem delimited_escape (quotation : Quotation mark) : Delimited id (escape mark) := by
  intro c d rest other same
  have first := readChar?_escaped quotation (escaped_escape mark c) rest
  rw [same, readChar?_escaped quotation (escaped_escape mark d) other] at first
  obtain ⟨rfl, rfl⟩ := Prod.mk.inj (Option.some.inj first)
  exact ⟨rfl, rfl⟩

private theorem stops_escape (quotation : Quotation mark) (rest : List Char) :
    Stops (escape mark) (mark :: rest) := by
  intro c more same
  have escaped := escaped_escape mark c
  generalize escape mark c = text at escaped same
  have notBackslash : mark ≠ '\\' := by obtain rfl | rfl := quotation <;> decide
  cases escaped with
  | letter => exact notBackslash (List.cons.inj same).1.symm
  | raw plain =>
    obtain rfl := (List.cons.inj same).1
    exact plain (by simp [letters])
  | codePoint => exact notBackslash (List.cons.inj same).1.symm

theorem toList_quoteWith (mark : Char) (text : List Char) :
    (quoteWith mark text).toList = mark :: (text.flatMap (escape mark) ++ [mark]) := by
  simp [quoteWith]

private theorem delimited_quoteWith (quotation : Quotation mark) :
    Delimited id fun text => (quoteWith mark text).toList := by
  intro first second rest other same
  simp only [toList_quoteWith, List.cons_append, List.append_assoc] at same
  obtain ⟨read, behind⟩ := (delimited_escape quotation).flatMap (stops_escape quotation rest)
    (stops_escape quotation other) (List.cons.inj same).2
  rw [List.map_id, List.map_id] at read
  exact ⟨read, (List.cons.inj behind).2⟩

theorem delimited_quote : Delimited String.toList fun text => (quote text).toList :=
  (delimited_quoteWith (.inl rfl)).comp String.toList

theorem quoteChar_injective {c d : Char} (same : (quoteChar c).toList = (quoteChar d).toList) : c = d := by
  have quoted : [c] = [d] := (delimited_quoteWith (.inr rfl) (congrArg (· ++ []) same)).1
  exact List.singleton_inj.mp quoted

private theorem lineFeed_not_mem_escaped (quotation : Quotation mark) {text : List Char}
    (escaped : Escaped mark c text) : '\n' ∉ text := by
  cases escaped with
  | letter member =>
    have all : ∀ entry ∈ letters mark, '\n' ∉ ['\\', entry.1] := by
      obtain rfl | rfl := quotation <;> decide
    exact all _ member
  | raw plain =>
    intro feed
    obtain rfl := List.mem_singleton.mp feed
    exact plain (by simp [letters])
  | codePoint =>
    have digits : '\n' ∉ Nat.toDigits 16 c.toNat := not_mem_toDigits (by decide) (by decide) (by decide) _
    simp [escapeCodePoint, digits]

theorem lineFeed_not_mem_quote (text : String) : '\n' ∉ (quote text).toList := by
  have inner : '\n' ∉ text.toList.flatMap (escape '"') := by
    intro feed
    obtain ⟨c, _, inside⟩ := List.mem_flatMap.mp feed
    exact lineFeed_not_mem_escaped (.inl rfl) (escaped_escape '"' c) inside
  simp [quote, toList_quoteWith, inner]

end Quoting

end CantoScan.Proofs.QuotedTexts
