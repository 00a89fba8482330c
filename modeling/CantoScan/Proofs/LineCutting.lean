import CantoScan.Proofs.Utf8Encoding

/-! A stream cut into lines, and the same cut in bytes and in characters. The two marks of a line's end
are single bytes that no longer encoding contains, so lines may be cut before or after decoding. -/

namespace CantoScan.Proofs.LineCutting
open Text Utf8Encoding

/-- The lines of a stream. A feed ends a line, together with one carriage mark before it; what stands
behind the last feed is a line of its own unless it is empty. -/
inductive Lines {α : Type} (feed carriage : α) : List α → List (List α) → Prop where
  | done : Lines feed carriage [] []
  | last {line : List α} : line ≠ [] → feed ∉ line → Lines feed carriage line [line]
  | ended {line rest : List α} {lines : List (List α)} :
      feed ∉ line → line.getLast? ≠ some carriage → Lines feed carriage rest lines →
      Lines feed carriage (line ++ feed :: rest) (line :: lines)
  | returned {line rest : List α} {lines : List (List α)} :
      feed ∉ line → Lines feed carriage rest lines →
      Lines feed carriage (line ++ carriage :: feed :: rest) (line :: lines)

/-- Every stream can be cut, whatever part of its first line has been read before. -/
theorem exists_lines {α : Type} (feed carriage : α) (stream : List α) {read : List α}
    (within : feed ∉ read) : ∃ lines, Lines feed carriage (read ++ stream) lines := by
  classical
  induction stream generalizing read with
  | nil =>
    rw [List.append_nil]
    by_cases empty : read = []
    · exact ⟨[], empty ▸ .done⟩
    · exact ⟨[read], .last empty within⟩
  | cons next stream ih =>
    by_cases final : next = feed
    · subst final
      obtain ⟨lines, later⟩ := ih List.not_mem_nil
      by_cases ending : read.getLast? = some carriage
      · obtain ⟨line, rfl⟩ := List.getLast?_eq_some_iff.mp ending
        rw [List.append_assoc]
        exact ⟨line :: lines, .returned (fun inside => within (by simp [inside])) later⟩
      · exact ⟨read :: lines, .ended within ending later⟩
    · rw [List.append_cons]
      exact ih (by simp [within, Ne.symm final])

private theorem linesOnto_append {line : List UInt8} (within : lineFeed ∉ line) (read stream : List UInt8) :
    linesOnto read (line ++ stream) = linesOnto (line.reverse ++ read) stream := by
  induction line generalizing read with
  | nil => rfl
  | cons byte line ih =>
    obtain ⟨other, within⟩ := not_or.mp (mt List.mem_cons.mpr within)
    rw [List.cons_append, linesOnto, if_neg (Ne.symm other), ih within, List.reverse_cons,
      List.append_assoc]
    rfl

private theorem linesOnto_lineFeed (read stream : List UInt8) :
    linesOnto read (lineFeed :: stream) = (dropReturn read).reverse :: lines stream := by
  rw [linesOnto, if_pos rfl, lines]

private theorem dropReturn_reverse {line : List UInt8} (other : line.getLast? ≠ some carriageReturn) :
    dropReturn line.reverse = line.reverse := by
  rw [← List.head?_reverse] at other
  cases reversed : line.reverse with
  | nil => rfl
  | cons byte before =>
    rw [reversed, List.head?_cons, ne_eq, Option.some.injEq] at other
    rw [dropReturn, if_neg other]

private theorem lineFeed_ne_carriageReturn : lineFeed ≠ carriageReturn := by decide

private theorem lines_of_cut {stream : List UInt8} {cut : List (List UInt8)}
    (division : Lines lineFeed carriageReturn stream cut) : lines stream = cut := by
  induction division with
  | done => rfl
  | @last line nonempty within =>
    have whole := linesOnto_append within [] []
    rw [List.append_nil, List.append_nil] at whole
    rw [lines, whole, linesOnto, if_neg (by simpa using nonempty), List.reverse_reverse]
  | @ended line rest cut within ending _ ih =>
    rw [lines, linesOnto_append within, List.append_nil, linesOnto_lineFeed, dropReturn_reverse ending,
      List.reverse_reverse, ih]
  | @returned line rest cut within _ ih =>
    have withinToo : lineFeed ∉ line ++ [carriageReturn] := by
      simp [within, lineFeed_ne_carriageReturn]
    rw [List.append_cons, lines, linesOnto_append withinToo, List.append_nil, linesOnto_lineFeed,
      List.reverse_append, List.reverse_singleton, List.singleton_append, dropReturn, if_pos rfl,
      List.reverse_reverse, ih]

/-- A stream is cut in one way only. -/
theorem lines_iff {stream : List UInt8} {cut : List (List UInt8)} :
    Lines lineFeed carriageReturn stream cut ↔ cut = lines stream := by
  constructor
  · intro division
    exact (lines_of_cut division).symm
  · rintro rfl
    obtain ⟨cut, division⟩ := exists_lines lineFeed carriageReturn stream List.not_mem_nil
    rw [List.nil_append] at division
    rwa [lines_of_cut division]

private theorem toNat_of_mem_utf8EncodeChar {c : Char} {byte : UInt8} (inside : byte ∈ String.utf8EncodeChar c)
    (small : byte.toNat < 0x80) : c.toNat = byte.toNat := by
  obtain ⟨first, bytes, encoded, ⟨high, leads, point⟩, follow, _⟩ := form_utf8EncodeChar c
  have later : byte ∉ bytes := by
    intro member
    have range := isContinuation_iff.mp (List.all_eq_true.mp follow byte member)
    omega
  rw [encoded] at inside
  obtain rfl : byte = first := (List.mem_cons.mp inside).resolve_right later
  generalize length : bytes.length = count at leads
  cases leads with
  | zero place _ =>
    obtain rfl := List.length_eq_zero_iff.mp length
    exact point.symm.trans place.symm
  | one | two | three => omega

section Mark
variable {mark : Char} (ascii : mark.toNat < 0x80)
include ascii

private theorem utf8EncodeChar_ascii : String.utf8EncodeChar mark = [UInt8.ofNat mark.toNat] := by
  have value : mark.val.toNat = mark.toNat := rfl
  unfold String.utf8EncodeChar
  simp only [value]
  rw [if_pos (by omega)]

private theorem mem_encode_ascii {text : List Char} : UInt8.ofNat mark.toNat ∈ encode text ↔ mark ∈ text := by
  have byte : (UInt8.ofNat mark.toNat).toNat = mark.toNat := by
    rw [UInt8.toNat_ofNat']
    omega
  rw [encode, List.mem_flatMap]
  constructor
  · rintro ⟨c, member, inside⟩
    have same := toNat_of_mem_utf8EncodeChar inside (by omega)
    rw [byte] at same
    rwa [← Char.toNat_inj.mp same]
  · intro member
    exact ⟨mark, member, by simp [utf8EncodeChar_ascii ascii]⟩

private theorem getLast?_encode_ascii {text : List Char} (ending : text.getLast? = some mark) :
    (encode text).getLast? = some (UInt8.ofNat mark.toNat) := by
  obtain ⟨before, rfl⟩ := List.getLast?_eq_some_iff.mp ending
  rw [encode_append, encode_cons, encode_nil, utf8EncodeChar_ascii ascii]
  simp

end Mark

private theorem lineFeed_mem_encode {text : List Char} : lineFeed ∈ encode text ↔ '\n' ∈ text :=
  mem_encode_ascii (by decide : '\n'.toNat < 0x80)

/-- Where every line of a stream is a text, the whole stream is one, and is cut into these texts. -/
theorem lines_of_encoded {stream : List UInt8} {texts : List (List Char)}
    (division : Lines lineFeed carriageReturn stream (texts.map encode)) :
    ∃ whole, stream = encode whole ∧ Lines '\n' '\r' whole texts := by
  generalize encoded : texts.map encode = cut at division
  induction division generalizing texts with
  | done =>
    obtain rfl := List.map_eq_nil_iff.mp encoded
    exact ⟨[], rfl, .done⟩
  | last nonempty within =>
    obtain ⟨text, rfl, rfl⟩ := List.map_eq_singleton_iff.mp encoded
    refine ⟨text, rfl, .last ?_ (mt lineFeed_mem_encode.mpr within)⟩
    rintro rfl
    exact nonempty rfl
  | ended within ending _ ih =>
    obtain ⟨text, later, rfl, rfl, rest⟩ := List.map_eq_cons_iff.mp encoded
    obtain ⟨whole, rfl, division⟩ := ih rest
    refine ⟨text ++ '\n' :: whole, ?_, .ended (mt lineFeed_mem_encode.mpr within) ?_ division⟩
    · rw [encode_append, encode_cons]
      rfl
    · exact fun final => ending (getLast?_encode_ascii (by decide) final)
  | returned within _ ih =>
    obtain ⟨text, later, rfl, rfl, rest⟩ := List.map_eq_cons_iff.mp encoded
    obtain ⟨whole, rfl, division⟩ := ih rest
    refine ⟨text ++ '\r' :: '\n' :: whole, ?_, .returned (mt lineFeed_mem_encode.mpr within) division⟩
    rw [encode_append, encode_cons, encode_cons]
    rfl

end CantoScan.Proofs.LineCutting
