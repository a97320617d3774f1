import CodeMarkup.Text.Line

/-!
# Rows

A parser gives a position as a byte offset and as a row, and the row of an offset is the number of
newlines before it. The starts of lines say the same in another way: an offset is in a row or a later one
exactly when it is not before the start of that row's line (`le_rowAt_iff`). Everything else about rows
follows from this, without another look at the characters.
-/

namespace CodeMarkup.Text

/-- The row of a byte offset: how many newlines stand before it. An offset inside a character has the row
of the character's first byte. -/
def rowAt : List Char → Nat → Nat
  | [], _ => 0
  | c :: rest, offset =>
    if offset < c.utf8Size then 0
    else (if c = '\n' then 1 else 0) + rowAt rest (offset - c.utf8Size)

/-- There is a row for every newline, and one more. -/
theorem length_lineStarts (text : List Char) : (lineStarts text).length = text.count '\n' + 1 := by
  rw [lineStarts, List.length_cons, length_laterStarts]

/-- No offset is in a row past the last. -/
theorem rowAt_le_count (text : List Char) (offset : Nat) : rowAt text offset ≤ text.count '\n' := by
  induction text generalizing offset with
  | nil => exact Nat.zero_le _
  | cons c rest ih =>
    have hrest := ih (offset - c.utf8Size)
    unfold rowAt
    by_cases h : c = '\n'
    · have hcount : (c :: rest).count '\n' = rest.count '\n' + 1 := by
        rw [h, List.count_cons_self]
      rw [if_pos h, hcount]
      split <;> omega
    · rw [if_neg h, List.count_cons_of_ne h]
      split <;> omega

/-- A later line starts after the text does. -/
theorem lt_of_mem_laterStarts {base : Nat} {text : List Char} :
    ∀ start ∈ laterStarts base text, base < start := by
  induction text generalizing base with
  | nil => simp [laterStarts]
  | cons c rest ih =>
    intro start hm
    have hsize : 0 < c.utf8Size := c.utf8Size_pos
    by_cases h : c = '\n'
    · simp only [laterStarts, h, if_true, List.mem_cons] at hm
      rcases hm with rfl | hm
      · exact Nat.lt_add_of_pos_right (by decide)
      · have := ih start hm
        omega
    · simp only [laterStarts, h, if_false] at hm
      have := ih start hm
      omega

/-- The later starts, for a text whose first byte is at `base`. -/
theorem succ_le_rowAt_iff {base row start : Nat} {text : List Char}
    (h : (laterStarts base text)[row]? = some start) (offset : Nat) :
    row + 1 ≤ rowAt text offset ↔ start ≤ base + offset := by
  induction text generalizing base row offset with
  | nil => simp [laterStarts] at h
  | cons c rest ih =>
    have hafter : base < start := lt_of_mem_laterStarts start (List.mem_of_getElem? h)
    unfold rowAt
    by_cases hc : c = '\n'
    · have hsize : c.utf8Size = 1 := by
        rw [hc]
        rfl
      rw [laterStarts, if_pos hc] at h
      rw [if_pos hc]
      cases row with
      | zero =>
        obtain rfl : base + c.utf8Size = start := Option.some.inj h
        split <;> omega
      | succ row =>
        rw [List.getElem?_cons_succ] at h
        have hlater := lt_of_mem_laterStarts start (List.mem_of_getElem? h)
        have hrest := ih h (offset - c.utf8Size)
        split <;> omega
    · rw [laterStarts, if_neg hc] at h
      have hlater := lt_of_mem_laterStarts start (List.mem_of_getElem? h)
      have hrest := ih h (offset - c.utf8Size)
      rw [if_neg hc]
      split <;> omega

/-- **An offset is in a row or a later one iff it is not before the start of that row's line.** -/
theorem le_rowAt_iff {row start : Nat} {text : List Char}
    (h : (lineStarts text)[row]? = some start) (offset : Nat) :
    row ≤ rowAt text offset ↔ start ≤ offset := by
  cases row with
  | zero =>
    obtain rfl : 0 = start := Option.some.inj h
    simp
  | succ row =>
    rw [lineStarts, List.getElem?_cons_succ] at h
    rw [succ_le_rowAt_iff h, Nat.zero_add]

/-- A row that has no line is past every offset. -/
theorem rowAt_lt_of_none {row : Nat} {text : List Char} (h : (lineStarts text)[row]? = none)
    (offset : Nat) : rowAt text offset < row := by
  have hrows := rowAt_le_count text offset
  rw [List.getElem?_eq_none_iff, length_lineStarts] at h
  omega

end CodeMarkup.Text
