import CantoScan.Text.Utf8
import Mathlib.Data.List.Basic

/-! Bytes and the text that they encode. Decoding accepts exactly the encodings of texts, so a text has
one form in bytes, and bytes that are cut between two characters can be decoded part by part. -/

namespace CantoScan.Proofs.Utf8Encoding
open Text

def encode (text : List Char) : List UInt8 := text.flatMap String.utf8EncodeChar

def bytesOf (source : String) : List UInt8 := encode source.toList

/-- What a leading byte says, by the number of bytes that follow it. -/
inductive Leads (byte : UInt8) : Nat → Nat → Prop where
  | zero {high : Nat} : byte.toNat = high → high < 0x80 → Leads byte 0 high
  | one {high : Nat} : byte.toNat = 0xC0 + high → high < 0x20 → Leads byte 1 high
  | two {high : Nat} : byte.toNat = 0xE0 + high → high < 0x10 → Leads byte 2 high
  | three {high : Nat} : byte.toNat = 0xF0 + high → high < 0x08 → Leads byte 3 high

private theorem leading?_of_leads {byte : UInt8} {count high : Nat} (leads : Leads byte count high) :
    leading? byte = some (count, high) := by
  cases leads with
  | zero place bound => simp only [leading?, place, if_pos bound]
  | one place bound =>
    simp only [leading?, place]
    rw [if_neg (by omega), if_neg (by omega), if_pos (by omega), Nat.add_sub_cancel_left]
  | two place bound =>
    simp only [leading?, place]
    rw [if_neg (by omega), if_neg (by omega), if_neg (by omega), if_pos (by omega),
      Nat.add_sub_cancel_left]
  | three place bound =>
    simp only [leading?, place]
    rw [if_neg (by omega), if_neg (by omega), if_neg (by omega), if_neg (by omega), if_pos (by omega),
      Nat.add_sub_cancel_left]

private theorem leads_of_leading? {byte : UInt8} {count high : Nat} (found : leading? byte = some (count, high)) :
    Leads byte count high := by
  unfold leading? at found
  simp only at found
  split at found
  · cases found
    exact .zero rfl ‹_›
  · split at found
    · cases found
    · split at found
      · cases found
        exact .one (by omega) (by omega)
      · split at found
        · cases found
          exact .two (by omega) (by omega)
        · split at found
          · cases found
            exact .three (by omega) (by omega)
          · cases found

/-- A leading byte, the bytes that it announces, and the code point that they make together. -/
structure Form (byte : UInt8) (bytes : List UInt8) (point : Nat) : Prop where
  leads : ∃ high, Leads byte bytes.length high ∧ combine high bytes = point
  follow : bytes.all isContinuation = true
  least : leastPoint bytes.length ≤ point

theorem toNat_ofNat {point : Nat} (valid : point.isValidChar) : (Char.ofNat point).toNat = point := by
  rw [Char.ofNat, dif_pos valid]
  rfl

theorem isContinuation_iff {byte : UInt8} :
    isContinuation byte = true ↔ 0x80 ≤ byte.toNat ∧ byte.toNat < 0xC0 := by
  simp [isContinuation]

private theorem decodeChar?_of_form {byte : UInt8} {bytes : List UInt8} {c : Char}
    (form : Form byte bytes c.toNat) (rest : List UInt8) :
    decodeChar? byte (bytes ++ rest) = some (c, rest) := by
  obtain ⟨⟨high, leads, point⟩, follow, least⟩ := form
  have valid : c.toNat.isValidChar := c.valid
  simp [decodeChar?, leading?_of_leads leads, point, follow, least, valid]

private theorem form_of_decodeChar? {byte : UInt8} {rest after : List UInt8} {c : Char}
    (found : decodeChar? byte rest = some (c, after)) :
    ∃ bytes, rest = bytes ++ after ∧ Form byte bytes c.toNat := by
  unfold decodeChar? at found
  split at found
  · cases found
  next count high lead =>
    simp only at found
    split at found
    next complete =>
      obtain ⟨⟨length, follow⟩, least, valid⟩ := complete
      obtain ⟨rfl, rfl⟩ := Prod.mk.inj (Option.some.inj found)
      refine ⟨rest.take count, (List.take_append_drop ..).symm, ?_, follow, ?_⟩
      · exact ⟨high, length.symm ▸ leads_of_leading? lead, (toNat_ofNat valid).symm⟩
      · rwa [length, toNat_ofNat valid]
    · cases found

/-- The byte that carries the last six bits of a number behind a leading byte. -/
theorem toNat_trail (n : Nat) : (UInt8.ofNat (n % 64 + 128)).toNat = n % 64 + 128 := by
  rw [UInt8.toNat_ofNat']
  omega

private theorem isContinuation_trail (n : Nat) : isContinuation (UInt8.ofNat (n % 64 + 128)) = true := by
  rw [isContinuation_iff, toNat_trail]
  omega

/-- The bytes of a character: a leading one and those that it announces. -/
theorem form_utf8EncodeChar (c : Char) :
    ∃ byte bytes, String.utf8EncodeChar c = byte :: bytes ∧ Form byte bytes c.toNat := by
  have valid : c.toNat.isValidChar := c.valid
  have bound : c.toNat < 0x110000 := by omega
  have value : c.val.toNat = c.toNat := rfl
  unfold String.utf8EncodeChar
  simp only [value]
  split
  next short =>
    refine ⟨_, _, rfl, ⟨c.toNat, .zero ?_ (by omega), rfl⟩, rfl, Nat.zero_le _⟩
    rw [UInt8.toNat_ofNat']
    omega
  next long =>
    split
    next =>
      refine ⟨_, _, rfl, ⟨c.toNat / 64, .one ?_ (by omega), ?_⟩, ?_, ?_⟩
      · rw [UInt8.toNat_ofNat']
        omega
      · simp only [combine, List.foldl_cons, List.foldl_nil, toNat_trail]
        omega
      · simp only [List.all_cons, List.all_nil, isContinuation_trail, Bool.and_self]
      · simp only [List.length_cons, List.length_nil, leastPoint]
        omega
    next longer =>
      split
      next =>
        refine ⟨_, _, rfl, ⟨c.toNat / 4096, .two ?_ (by omega), ?_⟩, ?_, ?_⟩
        · rw [UInt8.toNat_ofNat']
          omega
        · simp only [combine, List.foldl_cons, List.foldl_nil, toNat_trail]
          omega
        · simp only [List.all_cons, List.all_nil, isContinuation_trail, Bool.and_self]
        · simp only [List.length_cons, List.length_nil, leastPoint]
          omega
      next longest =>
        refine ⟨_, _, rfl, ⟨c.toNat / 262144, .three ?_ (by omega), ?_⟩, ?_, ?_⟩
        · rw [UInt8.toNat_ofNat']
          omega
        · simp only [combine, List.foldl_cons, List.foldl_nil, toNat_trail]
          omega
        · simp only [List.all_cons, List.all_nil, isContinuation_trail, Bool.and_self]
        · simp only [List.length_cons, List.length_nil, leastPoint]
          omega

private theorem ofNat_eq {n : Nat} {byte : UInt8} (same : n = byte.toNat) : UInt8.ofNat n = byte := by
  rw [same, UInt8.ofNat_toNat]

/-- A character has only one form. -/
theorem utf8EncodeChar_of_form {byte : UInt8} {bytes : List UInt8} {c : Char}
    (form : Form byte bytes c.toNat) : String.utf8EncodeChar c = byte :: bytes := by
  obtain ⟨⟨high, leads, point⟩, follow, least⟩ := form
  have value : c.val.toNat = c.toNat := rfl
  unfold String.utf8EncodeChar
  simp only [value]
  generalize length : bytes.length = count at leads least
  cases leads with
  | zero place bound =>
    obtain rfl := List.length_eq_zero_iff.mp length
    simp only [combine, List.foldl_nil] at point
    rw [if_pos (by omega), List.cons.injEq]
    exact ⟨ofNat_eq (by omega), rfl⟩
  | one place bound =>
    obtain ⟨second, rfl⟩ := List.length_eq_one_iff.mp length
    simp only [combine, List.foldl_cons, List.foldl_nil] at point
    simp only [List.all_cons, List.all_nil, Bool.and_true, isContinuation_iff, leastPoint] at follow least
    rw [if_neg (by omega), if_pos (by omega)]
    simp only [List.cons.injEq, and_true]
    exact ⟨ofNat_eq (by omega), ofNat_eq (by omega)⟩
  | two place bound =>
    obtain ⟨second, third, rfl⟩ := List.length_eq_two.mp length
    simp only [combine, List.foldl_cons, List.foldl_nil] at point
    simp only [List.all_cons, List.all_nil, Bool.and_true, Bool.and_eq_true, isContinuation_iff,
      leastPoint] at follow least
    rw [if_neg (by omega), if_neg (by omega), if_pos (by omega)]
    simp only [List.cons.injEq, and_true]
    exact ⟨ofNat_eq (by omega), ofNat_eq (by omega), ofNat_eq (by omega)⟩
  | three place bound =>
    obtain ⟨second, third, fourth, rfl⟩ := List.length_eq_three.mp length
    simp only [combine, List.foldl_cons, List.foldl_nil] at point
    simp only [List.all_cons, List.all_nil, Bool.and_true, Bool.and_eq_true, isContinuation_iff,
      leastPoint] at follow least
    rw [if_neg (by omega), if_neg (by omega), if_neg (by omega)]
    simp only [List.cons.injEq, and_true]
    exact ⟨ofNat_eq (by omega), ofNat_eq (by omega), ofNat_eq (by omega), ofNat_eq (by omega)⟩

@[simp] theorem encode_nil : encode [] = [] := rfl

theorem encode_cons (c : Char) (text : List Char) :
    encode (c :: text) = String.utf8EncodeChar c ++ encode text :=
  List.flatMap_cons

theorem encode_append (first second : List Char) : encode (first ++ second) = encode first ++ encode second :=
  List.flatMap_append

private theorem decodeOnto_encode (text : List Char) (rest : List UInt8) (read : List Char) :
    decodeOnto (encode text ++ rest) read = decodeOnto rest (text.reverse ++ read) := by
  induction text generalizing read with
  | nil => rfl
  | cons c text ih =>
    obtain ⟨byte, bytes, encoded, form⟩ := form_utf8EncodeChar c
    rw [encode_cons, encoded, List.cons_append, List.cons_append, List.append_assoc, decodeOnto_cons,
      decodeChar?_of_form form, Option.bind_some, ih, List.reverse_cons, List.append_assoc]
    rfl

private theorem eq_encode_of_decodeOnto {bytes : List UInt8} {read result : List Char}
    (decoded : decodeOnto bytes read = some result) :
    ∃ text, bytes = encode text ∧ result = read.reverse ++ text := by
  fun_induction decodeOnto bytes read with
  | case1 read => exact ⟨[], rfl, by simpa using decoded.symm⟩
  | case2 read byte rest invalid => cases decoded
  | case3 read byte rest c after found ih =>
    obtain ⟨text, left, same⟩ := ih decoded
    obtain ⟨bytes, whole, form⟩ := form_of_decodeChar? found
    refine ⟨c :: text, ?_, by rw [same, List.reverse_cons, List.append_assoc]; rfl⟩
    rw [encode_cons, utf8EncodeChar_of_form form, whole, left, List.cons_append]

/-- Decoding is the inverse of encoding. -/
theorem decode?_eq_some_iff {bytes : List UInt8} {source : String} :
    decode? bytes = some source ↔ bytes = bytesOf source := by
  constructor
  · intro decoded
    obtain ⟨text, found, rfl⟩ := Option.map_eq_some_iff.mp decoded
    obtain ⟨whole, rfl, same⟩ := eq_encode_of_decodeOnto found
    rw [bytesOf, String.toList_ofList, same]
    rfl
  · rintro rfl
    have decoded := decodeOnto_encode source.toList [] []
    rw [List.append_nil, List.append_nil] at decoded
    rw [bytesOf, decode?, decoded, decodeOnto, List.reverse_reverse, Option.map_some, String.ofList_toList]

end CantoScan.Proofs.Utf8Encoding
