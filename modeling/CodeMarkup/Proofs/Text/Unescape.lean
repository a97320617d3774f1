import CodeMarkup.Text.Escape
import CodeMarkup.Text.Split

/-!
# Reading entities back

A reader of markup takes an entity for the character that it stands for, and every other character for
itself. Since an ampersand is written as an entity too, no text is mistaken for an entity, and what was
escaped is read back as it was (`unescaped_escapedMarkup`), whatever it is followed by.
-/

namespace CodeMarkup.Text

/-- A text with the five named entities read as the characters that they stand for. -/
def unescaped : List Char → List Char
  | '&' :: 'a' :: 'm' :: 'p' :: ';' :: rest => '&' :: unescaped rest
  | '&' :: 'l' :: 't' :: ';' :: rest => '<' :: unescaped rest
  | '&' :: 'g' :: 't' :: ';' :: rest => '>' :: unescaped rest
  | '&' :: 'q' :: 'u' :: 'o' :: 't' :: ';' :: rest => '"' :: unescaped rest
  | '&' :: '#' :: '3' :: '9' :: ';' :: rest => '\'' :: unescaped rest
  | c :: rest => c :: unescaped rest
  | [] => []

/-- What begins with no ampersand begins with no entity. -/
theorem unescaped_cons {c : Char} (h : c ≠ '&') (rest : List Char) :
    unescaped (c :: rest) = c :: unescaped rest := by
  rw [unescaped] <;> exact fun _ hamp => absurd hamp h

/-- **A written character is read as that character.** -/
theorem unescaped_markupChar (c : Char) (rest : List Char) :
    unescaped (markupChar c ++ rest) = c :: unescaped rest := by
  unfold markupChar entity?
  split
  · rfl
  · rfl
  · rfl
  · rfl
  · rfl
  · rename_i hamp _ _ _ _
    exact unescaped_cons hamp rest

theorem unescaped_escapedMarkup_append (text rest : List Char) :
    unescaped (escapedMarkup text ++ rest) = text ++ unescaped rest := by
  induction text with
  | nil => rfl
  | cons c text ih =>
    rw [escapedMarkup_cons, List.append_assoc, unescaped_markupChar, ih, List.cons_append]

/-- **What was escaped is read back.** -/
theorem unescaped_escapedMarkup (text : List Char) : unescaped (escapedMarkup text) = text := by
  have h := unescaped_escapedMarkup_append text []
  rwa [List.append_nil, unescaped, List.append_nil] at h

/-- Texts are escaped one by one, if what joins them needs no escape. -/
theorem escapedMarkup_join {separator : Char} (h : entity? separator = none)
    (pieces : List (List Char)) :
    escapedMarkup (join separator pieces) = join separator (pieces.map escapedMarkup) := by
  have hseparator : markupChar separator = [separator] := by
    rw [markupChar, h, Option.getD_none]
  induction pieces with
  | nil => rfl
  | cons piece rest ih =>
    cases rest with
    | nil => rfl
    | cons next rest =>
      rw [join, escapedMarkup_append, escapedMarkup_cons, hseparator, ih]
      · rfl
      · exact List.cons_ne_nil _ _

end CodeMarkup.Text
