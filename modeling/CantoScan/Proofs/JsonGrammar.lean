import CantoScan.Json.Printer
import Mathlib.Data.List.Forall2

/-! JSON texts as they may be written. Every value has many texts: blanks are free between its parts,
and each character of a string may stand for itself or be escaped. -/

namespace CantoScan.Proofs.JsonGrammar
open Json

def Blanks (text : List Char) : Prop := ∀ c ∈ text, Text.isBlank c = true

theorem blanks_nil : Blanks [] := List.forall_mem_nil _

/-- Digits of base sixteen may be in either case. -/
inductive HexDigit (c : Char) (value : Nat) : Prop where
  | lower : "0123456789abcdef".toList[value]? = some c → HexDigit c value
  | upper : "0123456789ABCDEF".toList[value]? = some c → HexDigit c value

inductive FourDigits : List Char → Nat → Prop where
  | digits {a b c d : Char} {i j k l : Nat} :
      HexDigit a i → HexDigit b j → HexDigit c k → HexDigit d l →
      FourDigits [a, b, c, d] (16 * (16 * (16 * i + j) + k) + l)

/-- The letters that may stand behind a backslash, each with the character that is meant. -/
def shortEscapes : List (Char × Char) :=
  [('"', '"'), ('\\', '\\'), ('/', '/'), ('b', '\x08'), ('f', '\x0C'), ('n', '\n'), ('r', '\r'),
   ('t', '\t')]

/-- A character inside a string. One beyond the first 65536 is escaped by two numbers. -/
inductive CharText (c : Char) : List Char → Prop where
  | raw : c ≠ '"' → c ≠ '\\' → 0x20 ≤ c.toNat → CharText c [c]
  | short {letter : Char} : (letter, c) ∈ shortEscapes → CharText c ['\\', letter]
  | unit {digits : List Char} : FourDigits digits c.toNat → CharText c ('\\' :: 'u' :: digits)
  | pair {first second : List Char} {high low : Nat} :
      FourDigits first high → FourDigits second low →
      0xD800 ≤ high → high < 0xDC00 → 0xDC00 ≤ low → low < 0xE000 →
      c.toNat = 0x10000 + (high - 0xD800) * 0x400 + (low - 0xDC00) →
      CharText c ('\\' :: 'u' :: (first ++ '\\' :: 'u' :: second))

inductive Spelled : List Char → List Char → Prop where
  | nil : Spelled [] []
  | cons {c : Char} {text : List Char} {first rest : List Char} :
      CharText c first → Spelled text rest → Spelled (c :: text) (first ++ rest)

def StringText (value : String) (text : List Char) : Prop :=
  ∃ body, Spelled value.toList body ∧ text = '"' :: (body ++ ['"'])

private theorem hexDigit_of_lt {n : Nat} (small : n < 16) : HexDigit (hexDigit n) n := by
  have all : ∀ n : Fin 16, "0123456789abcdef".toList[n.val]? = some (hexDigit n.val) := by decide
  exact .lower (all ⟨n, small⟩)

private theorem charText_escapeChar (c : Char) : CharText c (escapeChar c) := by
  unfold escapeChar
  split
  next quoted =>
    rcases quoted with rfl | rfl
    · exact .short (by decide)
    · exact .short (by decide)
  next plain =>
    obtain ⟨noQuote, noBackslash⟩ := not_or.mp plain
    -- Five characters have letters of their own.
    iterate 5
      split
      next equal =>
        subst equal
        exact .short (by decide)
    split
    next control =>
      have digits := FourDigits.digits (hexDigit_of_lt (n := 0) (by decide))
        (hexDigit_of_lt (n := 0) (by decide)) (hexDigit_of_lt (n := c.toNat / 16) (by omega))
        (hexDigit_of_lt (n := c.toNat % 16) (by omega))
      have value : 16 * (16 * (16 * 0 + 0) + c.toNat / 16) + c.toNat % 16 = c.toNat := by omega
      rw [value] at digits
      exact .unit digits
    next printable => exact .raw noQuote noBackslash (by omega)

/-- The printed form of a string is one of its texts. -/
theorem stringText_quote (value : String) : StringText value (quote value).toList := by
  have spelled (text : List Char) : Spelled text (text.flatMap escapeChar) := by
    induction text with
    | nil => exact .nil
    | cons c text ih => exact .cons (charText_escapeChar c) ih
  exact ⟨_, spelled value.toList, by simp [quote]⟩

/-- A character inside a string that is only passed over; half a pair may stand alone there. -/
inductive LooseChar : List Char → Prop where
  | raw {c : Char} : c ≠ '"' → c ≠ '\\' → 0x20 ≤ c.toNat → LooseChar [c]
  | short {letter c : Char} : (letter, c) ∈ shortEscapes → LooseChar ['\\', letter]
  | unit {digits : List Char} {value : Nat} : FourDigits digits value → LooseChar ('\\' :: 'u' :: digits)

inductive LooseString : List Char → Prop where
  | string {parts : List (List Char)} :
      (∀ part ∈ parts, LooseChar part) → LooseString ('"' :: (parts.flatten ++ ['"']))

def Digits (text : List Char) : Prop := text ≠ [] ∧ ∀ c ∈ text, c.isDigit = true

inductive WholeText : List Char → Prop where
  | zero : WholeText ['0']
  | digits {c : Char} {rest : List Char} : c ≠ '0' → Digits (c :: rest) → WholeText (c :: rest)

inductive FractionText : List Char → Prop where
  | absent : FractionText []
  | digits {text : List Char} : Digits text → FractionText ('.' :: text)

inductive ExponentText : List Char → Prop where
  | absent : ExponentText []
  | digits {mark : Char} {sign text : List Char} :
      mark ∈ ['e', 'E'] → sign ∈ [[], ['+'], ['-']] → Digits text → ExponentText (mark :: (sign ++ text))

inductive NumberText : List Char → Prop where
  | number {sign whole fraction exponent : List Char} :
      sign ∈ [[], ['-']] → WholeText whole → FractionText fraction → ExponentText exponent →
      NumberText (sign ++ (whole ++ (fraction ++ exponent)))

/-- Texts with a comma between each two and blanks around each. -/
inductive Separated : List (List Char) → List Char → Prop where
  | last {text before behind : List Char} :
      Blanks before → Blanks behind → Separated [text] (before ++ (text ++ behind))
  | more {text before behind rest : List Char} {texts : List (List Char)} :
      Blanks before → Blanks behind → Separated texts rest →
      Separated (text :: texts) (before ++ (text ++ (behind ++ ',' :: rest)))

def opener : Bracket → Char
  | .list => '['
  | .object => '{'

/-- Texts between two brackets. -/
inductive Enclosed (bracket : Bracket) : List (List Char) → List Char → Prop where
  | empty {gap : List Char} :
      Blanks gap → Enclosed bracket [] (opener bracket :: (gap ++ [bracket.closer]))
  | filled {texts : List (List Char)} {inner : List Char} :
      Separated texts inner → Enclosed bracket texts (opener bracket :: (inner ++ [bracket.closer]))

/-- A key and a value with a colon between them. -/
inductive Joined (key value : List Char) : List Char → Prop where
  | joined {before behind : List Char} :
      Blanks before → Blanks behind → Joined key value (key ++ (before ++ ':' :: (behind ++ value)))

def wordTexts : List (List Char) := ["null".toList, "true".toList, "false".toList]

/-- Any value, however deep. -/
inductive Wellformed : List Char → Prop where
  | word {text : List Char} : text ∈ wordTexts → Wellformed text
  | number {text : List Char} : NumberText text → Wellformed text
  | string {text : List Char} : LooseString text → Wellformed text
  | list {texts : List (List Char)} {text : List Char} :
      (∀ item ∈ texts, Wellformed item) → Enclosed .list texts text → Wellformed text
  | object {members : List (List Char × List Char)} {texts : List (List Char)} {text : List Char} :
      (∀ member ∈ members, LooseString member.1) → (∀ member ∈ members, Wellformed member.2) →
      List.Forall₂ (fun member => Joined member.1 member.2) members texts →
      Enclosed .object texts text → Wellformed text

/-- An object with named members. -/
inductive ObjectText (members : List (String × List Char)) : List Char → Prop where
  | object {texts : List (List Char)} {text : List Char} :
      List.Forall₂ (fun member text => ∃ key, StringText member.1 key ∧ Joined key member.2 text)
        members texts →
      Enclosed .object texts text → ObjectText members text

end CantoScan.Proofs.JsonGrammar
