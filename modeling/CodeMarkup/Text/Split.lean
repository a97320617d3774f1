/-!
# Splitting at a separator

Lines, the items of a list and the components of a path are all pieces of a sequence between
occurrences of a separator. A sequence without the separator is one piece, and a separator at either
end has an empty piece beyond it, so there is always one piece more than there are separators.
-/

namespace CodeMarkup.Text

variable {α : Type} [DecidableEq α]

/-- The pieces of a sequence between occurrences of a separator. -/
def split (separator : α) : List α → List (List α)
  | [] => [[]]
  | a :: rest =>
    if a = separator then [] :: split separator rest
    else match split separator rest with
      | piece :: others => (a :: piece) :: others
      | [] => [[a]]

/-- There is at least one piece. -/
theorem split_ne_nil (separator : α) (sequence : List α) : split separator sequence ≠ [] := by
  cases sequence with
  | nil => simp [split]
  | cons a rest =>
    unfold split
    split
    · simp
    · split <;> simp

/-- There is one piece more than there are separators. -/
theorem length_split (separator : α) (sequence : List α) :
    (split separator sequence).length = sequence.count separator + 1 := by
  induction sequence with
  | nil => rfl
  | cons a rest ih =>
    unfold split
    split
    · rename_i h
      simp [h, ih]
    · rename_i h
      split
      · rename_i piece others hs
        simp_all
      · rename_i hs
        exact absurd hs (split_ne_nil separator rest)

/-- Splitting goes piece by piece: what stands on the two sides of a separator is split by itself. -/
theorem split_append (separator : α) (front rest : List α) :
    split separator (front ++ separator :: rest) = split separator front ++ split separator rest := by
  induction front with
  | nil => simp [split]
  | cons a front ih =>
    rw [List.cons_append, split, split, ih]
    split
    · rfl
    · obtain ⟨piece, others, hs⟩ := List.exists_cons_of_ne_nil (split_ne_nil separator front)
      simp [hs]

/-- A sequence without the separator is one piece. -/
theorem split_of_not_mem {separator : α} {sequence : List α} (h : separator ∉ sequence) :
    split separator sequence = [sequence] := by
  induction sequence with
  | nil => rfl
  | cons a rest ih =>
    rw [List.mem_cons, not_or] at h
    rw [split, if_neg (Ne.symm h.1), ih h.2]

/-- Pieces with a separator between each two. -/
def join (separator : α) : List (List α) → List α
  | [] => []
  | [piece] => piece
  | piece :: rest => piece ++ separator :: join separator rest

/-- The pieces of a sequence join to the sequence. -/
theorem join_split (separator : α) (sequence : List α) :
    join separator (split separator sequence) = sequence := by
  induction sequence with
  | nil => rfl
  | cons a rest ih =>
    unfold split
    split
    · rename_i h
      obtain ⟨piece, others, hs⟩ := List.exists_cons_of_ne_nil (split_ne_nil separator rest)
      rw [hs] at ih ⊢
      simp [join, ih, h]
    · split
      · rename_i piece others hs
        rw [hs] at ih
        cases others with
        | nil => simpa [join] using ih
        | cons other others => simpa [join] using ih
      · rename_i hs
        exact absurd hs (split_ne_nil separator rest)

end CodeMarkup.Text
