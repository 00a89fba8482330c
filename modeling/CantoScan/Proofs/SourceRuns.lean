import CantoScan.Text.Blank
import Mathlib.Data.List.TakeWhile

/-! Stretches of a source given by offsets. A longest run is fixed by its characters and its first
offset, and a scan that takes characters while they belong to the run finds it. -/

namespace CantoScan.Proofs.SourceRuns

/-- The stretch from an offset up to the first character that does not belong to it, or to the end of
the source. It is empty if the character at the offset does not belong to it. -/
structure LongestRun (member : Char → Bool) (source : List Char) (start stop : Nat) : Prop where
  ordered : start ≤ stop
  within : stop ≤ source.length
  members : ∀ c ∈ source.extract start stop, member c = true
  ended : ∀ c, source[stop]? = some c → member c = false

private theorem mem_extract_of_getElem? {source : List Char} {start stop index : Nat} {c : Char}
    (after : start ≤ index) (before : index < stop) (found : source[index]? = some c) :
    c ∈ source.extract start stop := by
  apply List.mem_of_getElem? (i := index - start)
  rw [List.extract_eq_take_drop, List.getElem?_take_of_lt (by omega), List.getElem?_drop]
  rwa [Nat.add_sub_cancel' after]

theorem extract_append_drop (source : List Char) {start stop : Nat} (ordered : start ≤ stop) :
    source.extract start stop ++ source.drop stop = source.drop start := by
  have behind : source.drop stop = (source.drop start).drop (stop - start) := by
    rw [List.drop_drop, Nat.add_sub_cancel' ordered]
  rw [List.extract_eq_take_drop, behind, List.take_append_drop]

theorem extract_append (before middle behind : List Char) :
    (before ++ (middle ++ behind)).extract before.length (before.length + middle.length) = middle := by
  simp

theorem head?_extract (source : List Char) {start stop : Nat} (nonempty : start < stop) :
    (source.extract start stop).head? = source[start]? := by
  rw [List.extract_eq_take_drop, List.head?_take, if_neg (by omega), List.head?_drop]

theorem extract_one {source : List Char} {start : Nat} {c : Char} (found : source[start]? = some c) :
    source.extract start (start + 1) = [c] := by
  obtain ⟨inside, rfl⟩ := List.getElem?_eq_some_iff.mp found
  rw [List.extract_eq_take_drop, Nat.add_sub_cancel_left, List.drop_eq_getElem_cons inside]
  rfl

theorem extract_two {source : List Char} {start : Nat} {c d : Char} (found : source[start]? = some c)
    (next : source[start + 1]? = some d) : source.extract start (start + 2) = [c, d] := by
  obtain ⟨inside, rfl⟩ := List.getElem?_eq_some_iff.mp found
  obtain ⟨further, rfl⟩ := List.getElem?_eq_some_iff.mp next
  rw [List.extract_eq_take_drop, Nat.add_sub_cancel_left, List.drop_eq_getElem_cons inside,
    List.drop_eq_getElem_cons further]
  rfl

theorem getElem?_length_append (before text : List Char) (index : Nat) :
    (before ++ text)[before.length + index]? = text[index]? := by
  rw [List.getElem?_append_right (by omega), Nat.add_sub_cancel_left]

namespace LongestRun

private theorem not_lt {member : Char → Bool} {source : List Char} {start stop other : Nat}
    (first : LongestRun member source start stop) (second : LongestRun member source start other) :
    ¬ stop < other := by
  intro shorter
  have inside : stop < source.length := Nat.lt_of_lt_of_le shorter second.within
  have found : source[stop]? = some source[stop] := List.getElem?_eq_getElem inside
  have belongs := second.members _ (mem_extract_of_getElem? first.ordered shorter found)
  rw [first.ended _ found] at belongs
  cases belongs

theorem unique {member : Char → Bool} {source : List Char} {start stop other : Nat}
    (first : LongestRun member source start stop) (second : LongestRun member source start other) :
    stop = other :=
  Nat.le_antisymm (Nat.le_of_not_lt (second.not_lt first)) (Nat.le_of_not_lt (first.not_lt second))

/-- Taking characters while they belong finds the longest run. -/
theorem of_takeWhile (member : Char → Bool) (before text : List Char) :
    LongestRun member (before ++ text) before.length
      (before.length + (text.takeWhile member).length) where
  ordered := by omega
  within := by
    have shorter := (List.takeWhile_prefix (l := text) member).length_le
    rw [List.length_append]
    omega
  members := by
    intro c inside
    have whole : before ++ (text.takeWhile member ++ text.dropWhile member) = before ++ text := by
      rw [List.takeWhile_append_dropWhile]
    rw [← whole, extract_append] at inside
    exact List.mem_takeWhile_imp inside
  ended := by
    intro c found
    rw [getElem?_length_append] at found
    have first : (text.dropWhile member).head? = some c := by
      rw [List.head?_eq_getElem?, ← getElem?_length_append (text.takeWhile member),
        List.takeWhile_append_dropWhile]
      exact found
    have other := List.head?_dropWhile_not member text
    rw [first] at other
    exact other

end LongestRun

end CantoScan.Proofs.SourceRuns
