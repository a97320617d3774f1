import CodeMarkup.Proofs.Markup.Slicing
import CodeMarkup.Proofs.Text.Boundary
import CodeMarkup.Proofs.Text.Bytes
import CodeMarkup.Proofs.Text.Row

/-!
# The line index

The starts of a text's lines are an index into its bytes. Spans are put on lines by it, with rows as the parser counts
them, and lines are cut out of the text by it. It is right for both uses (`lineStarts_index`): the starts ascend, and
all but the first stand behind a newline (`append_of_mem_laterStarts`), so each is a place to cut; the last start that
is not after an offset is that of the offset's row, which is the number of newline bytes before the offset
(`rowAt_eq_count`); and the text is what is cut out, with newlines in between.
-/

namespace CodeMarkup.Text

open Utf8

/-! ## Starts -/

/-- A later line starts behind a newline. -/
theorem append_of_mem_laterStarts {base start : Nat} {text : List Char} (h : start ∈ laterStarts base text) :
    ∃ front back, text = front ++ '\n' :: back ∧ start = base + byteLength (front ++ ['\n']) := by
  induction text generalizing base with
  | nil => cases h
  | cons c rest ih =>
    -- behind the first character or behind a later one
    have hlater : start ∈ laterStarts (base + c.utf8Size) rest →
        ∃ front back, c :: rest = front ++ '\n' :: back ∧ start = base + byteLength (front ++ ['\n']) := by
      intro hrest
      obtain ⟨front, back, rfl, rfl⟩ := ih hrest
      exact ⟨c :: front, back, rfl, by rw [List.cons_append, byteLength_cons, Nat.add_assoc]⟩
    by_cases hnewline : c = '\n'
    · rw [laterStarts, if_pos hnewline] at h
      rcases List.mem_cons.mp h with rfl | hrest
      · exact ⟨[], rest, by rw [hnewline, List.nil_append], by rw [hnewline]; rfl⟩
      · exact hlater hrest
    · rw [laterStarts, if_neg hnewline] at h
      exact hlater h

theorem pairwise_laterStarts (base : Nat) (text : List Char) : (laterStarts base text).Pairwise (· < ·) := by
  induction text generalizing base with
  | nil => exact List.Pairwise.nil
  | cons c rest ih =>
    rw [laterStarts]
    split
    · exact List.pairwise_cons.mpr ⟨lt_of_mem_laterStarts, ih _⟩
    · exact ih _

/-- The starts of the lines ascend. -/
theorem pairwise_lineStarts (text : List Char) : (lineStarts text).Pairwise (· < ·) :=
  List.pairwise_cons.mpr ⟨lt_of_mem_laterStarts, pairwise_laterStarts 0 text⟩

/-- Every line starts between two characters. -/
theorem isBoundary_of_mem_lineStarts {text : List Char} {start : Nat} (h : start ∈ lineStarts text) :
    IsBoundary text start := by
  rcases List.mem_cons.mp h with rfl | hlater
  · exact ⟨[], text, rfl, rfl⟩
  · obtain ⟨front, back, rfl, rfl⟩ := append_of_mem_laterStarts hlater
    exact ⟨front ++ ['\n'], back, by rw [List.append_assoc, List.singleton_append], (Nat.zero_add _).symm⟩

theorem IsBoundary.le_byteLength {text : List Char} {offset : Nat} (h : IsBoundary text offset) :
    offset ≤ byteLength text := by
  obtain ⟨front, back, rfl, rfl⟩ := h
  rw [byteLength_append]
  exact Nat.le_add_right _ _

/-! ## Rows -/

/-- **The row of an offset is the number of newline bytes before it.** -/
theorem rowAt_eq_count (text : List Char) (offset : Nat) :
    rowAt text offset = ((encode (String.ofList text)).take offset).count newline := by
  rw [encode_ofList]
  induction text generalizing offset with
  | nil => rw [rowAt, List.flatMap_nil, List.take_nil, List.count_nil]
  | cons c rest ih =>
    have hsize := String.length_utf8EncodeChar c
    rw [rowAt, List.flatMap_cons, List.take_append, List.count_append, hsize]
    split
    · -- inside the character: no byte before its last is a newline's
      rename_i hinside
      rw [Nat.sub_eq_zero_of_le (Nat.le_of_lt hinside), List.take_zero, List.count_nil, Nat.add_zero]
      by_cases hnewline : c = '\n'
      · subst hnewline
        obtain rfl : offset = 0 := Nat.lt_one_iff.mp hinside
        rfl
      · have hnone := (count_newline c).trans (if_neg hnewline)
        have hfew := (List.take_sublist offset (String.utf8EncodeChar c)).count_le newline
        omega
    · rename_i hbehind
      rw [List.take_of_length_le (by omega), count_newline, ih]

/-- An entry of some starts is the last that is not after an offset. -/
def IsLastUpTo (starts : List Nat) (offset index : Nat) : Prop :=
  ∃ start, starts[index]? = some start ∧ start ≤ offset ∧ ∀ later ∈ starts.drop (index + 1), offset < later

/-- **The last start that is not after an offset is that of the offset's row.** -/
theorem isLastUpTo_rowAt (text : List Char) (offset : Nat) :
    IsLastUpTo (lineStarts text) offset (rowAt text offset) := by
  have hrow : rowAt text offset < (lineStarts text).length := by
    rw [length_lineStarts]
    exact Nat.lt_succ_of_le (rowAt_le_count text offset)
  obtain ⟨start, hstart⟩ : ∃ start, (lineStarts text)[rowAt text offset]? = some start :=
    ⟨_, List.getElem?_eq_getElem hrow⟩
  refine ⟨start, hstart, (le_rowAt_iff hstart offset).mp (Nat.le_refl _), fun later hlater => ?_⟩
  obtain ⟨index, hindex⟩ := List.getElem?_of_mem hlater
  rw [List.getElem?_drop] at hindex
  have hafter := le_rowAt_iff hindex offset
  omega

/-! ## The index -/

/-- **The starts of the lines of a text are its line index.** They ascend from 0, one more than there are newlines, and
each is between two characters and not past the last byte. The last one that is not after an offset has as its index the
offset's row, which is the number of newline bytes before the offset. From each start to before the next, which has a
byte before it, a line can be cut out, and the lines with newlines between them are the text. -/
theorem lineStarts_index (text : List Char) :
    (lineStarts text).Pairwise (· < ·) ∧ (lineStarts text).head? = some 0 ∧
    (lineStarts text).length = text.count '\n' + 1 ∧
    (∀ start ∈ lineStarts text, IsBoundary text start ∧ start ≤ (encode (String.ofList text)).length) ∧
    (∀ offset, rowAt text offset = ((encode (String.ofList text)).take offset).count newline ∧
      IsLastUpTo (lineStarts text) offset (rowAt text offset)) ∧
    (∀ next ∈ (lineStarts text).tail, 0 < next) ∧
    lineSlices? text (lineStarts text) = some (lines text) ∧ join '\n' (lines text) = text := by
  refine ⟨pairwise_lineStarts text, rfl, length_lineStarts text, fun start hstart => ?boundary,
    fun offset => ⟨rowAt_eq_count text offset, isLastUpTo_rowAt text offset⟩, lt_of_mem_laterStarts,
    lineSlices?_lineStarts text, join_lines text⟩
  case boundary =>
    have hboundary := isBoundary_of_mem_lineStarts hstart
    exact ⟨hboundary, length_encode_ofList text ▸ hboundary.le_byteLength⟩

/-- An offset inside a character of three bytes is in the row of the character, behind an empty line; and the last line
of a text that ends with a newline starts at its end. -/
theorem lineStarts_index_multibyte :
    let text := "é\n\n日\r\n".toList
    9 ∈ lineStarts text ∧ IsBoundary text 9 ∧ 9 ≤ (encode (String.ofList text)).length ∧
      4 ∈ (lineStarts text).tail ∧ 0 < 4 ∧ rowAt text 6 = 2 ∧ IsLastUpTo (lineStarts text) 6 2 := by
  intro text
  obtain ⟨-, -, -, hstarts, hrows, hnext, -⟩ := lineStarts_index text
  have hend : 9 ∈ lineStarts text := by decide
  have hlater : 4 ∈ (lineStarts text).tail := by decide
  have hrow : rowAt text 6 = 2 := by decide
  exact ⟨hend, (hstarts 9 hend).1, (hstarts 9 hend).2, hlater, hnext 4 hlater, hrow, hrow ▸ (hrows 6).2⟩

end CodeMarkup.Text
