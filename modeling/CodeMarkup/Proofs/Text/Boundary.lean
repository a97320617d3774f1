import CodeMarkup.Text.Slice

/-!
# Character boundaries

A byte offset is a **boundary** of a text if it falls between two characters, or at an end of the text. A text can be
cut at its boundaries and nowhere else, into what stands before the cut and what stands after it (`cutBytes_eq_some_iff`).
-/

namespace CodeMarkup.Text

/-- A byte offset falls between two characters of a text, or at one of its ends. -/
def IsBoundary (text : List Char) (offset : Nat) : Prop :=
  ∃ front back, text = front ++ back ∧ byteLength front = offset

/-- What is cut off a text are its first bytes. -/
theorem eq_append_of_cutBytes {count : Nat} {text front back : List Char}
    (h : cutBytes count text = some (front, back)) : text = front ++ back ∧ byteLength front = count := by
  fun_induction cutBytes count text generalizing front back with
  | case1 rest =>
    cases h
    exact ⟨rfl, rfl⟩
  | case2 => cases h
  | case3 count c rest hfits ih =>
    obtain ⟨⟨front, back⟩, hcut, heq⟩ := Option.map_eq_some_iff.mp h
    cases heq
    obtain ⟨rfl, hbytes⟩ := ih hcut
    refine ⟨rfl, ?_⟩
    rw [byteLength_cons, hbytes]
    omega
  | case4 => cases h

/-- **A text is cut into what stands before the cut and what stands after it.** -/
theorem cutBytes_eq_some_iff {count : Nat} {text front back : List Char} :
    cutBytes count text = some (front, back) ↔ text = front ++ back ∧ byteLength front = count := by
  refine ⟨eq_append_of_cutBytes, ?_⟩
  rintro ⟨rfl, rfl⟩
  exact cutBytes_append front back

/-- A text can be cut at its boundaries. -/
theorem isSome_cutBytes_iff {count : Nat} {text : List Char} :
    (cutBytes count text).isSome = true ↔ IsBoundary text count := by
  rw [Option.isSome_iff_exists, Prod.exists]
  exact exists_congr fun front => exists_congr fun back => cutBytes_eq_some_iff

/-- Elsewhere it cannot. -/
theorem cutBytes_eq_none_iff {count : Nat} {text : List Char} :
    cutBytes count text = none ↔ ¬IsBoundary text count := by
  rw [← isSome_cutBytes_iff, Option.not_isSome_iff_eq_none]

instance (text : List Char) (offset : Nat) : Decidable (IsBoundary text offset) :=
  decidable_of_iff ((cutBytes offset text).isSome = true) isSome_cutBytes_iff

/-- The boundaries behind a piece of a text are those of the rest, shifted. -/
theorem isBoundary_append_iff (front back : List Char) (offset : Nat) :
    IsBoundary (front ++ back) (byteLength front + offset) ↔ IsBoundary back offset := by
  induction front with
  | nil => simp
  | cons c rest ih =>
    rw [← ih]
    refine ⟨?_, ?_⟩
    · rintro ⟨first, second, happend, hbytes⟩
      rcases first with _ | ⟨d, first⟩
      · have hsize := c.utf8Size_pos
        simp only [byteLength_nil, byteLength_cons] at hbytes
        omega
      · rw [List.cons_append, List.cons_append] at happend
        obtain ⟨rfl, hrest⟩ := List.cons.inj happend
        refine ⟨first, second, hrest, ?_⟩
        simp only [byteLength_cons] at hbytes
        omega
    · rintro ⟨first, second, happend, hbytes⟩
      refine ⟨c :: first, second, by rw [List.cons_append, happend]; rfl, ?_⟩
      simp only [byteLength_cons]
      omega

end CodeMarkup.Text
