import CodeMarkup.Text.Numeral

/-!
# Character references

Markup text may not hold a bare `<` or `&`, so such characters are written as references. Two
vocabularies are in use. Code shown without highlighting takes decimal references, also for every
character from U+00A0 to U+9999. Highlighted code, attribute values and the theme's name take five
named entities, which make a text safe both as element content and between quotation marks.
-/

namespace CodeMarkup.Text

/-! ## Decimal references -/

/-- Whether unhighlighted code writes a character by its number. -/
def needsNumber (c : Char) : Bool :=
  c = '<' || c = '>' || c = '&' || (0xA0 ≤ c.toNat && c.toNat ≤ 0x9999)

/-- The decimal reference to a character. -/
def numberReference (c : Char) : List Char :=
  ['&', '#'] ++ decimal c.toNat ++ [';']

/-- One character of unhighlighted code. -/
def plainChar (c : Char) : List Char :=
  if needsNumber c then numberReference c else [c]

/-- Code as it is shown without highlighting. -/
def escapePlain (code : String) : String :=
  String.ofList (code.toList.flatMap plainChar)

/-! ## Named entities -/

/-- The name of the entity that stands for a character, if it has one here. -/
def entity? (c : Char) : Option (List Char) :=
  match c with
  | '&' => some "&amp;".toList
  | '<' => some "&lt;".toList
  | '>' => some "&gt;".toList
  | '"' => some "&quot;".toList
  | '\'' => some "&#39;".toList
  | _ => none

/-- One character of element content or of an attribute value. -/
def markupChar (c : Char) : List Char :=
  (entity? c).getD [c]

/-- A text inside markup, character by character. -/
def escapedMarkup (text : List Char) : List Char :=
  text.flatMap markupChar

/-- A text as element content or attribute value. -/
def escapeMarkup (text : String) : String :=
  String.ofList (escapedMarkup text.toList)

@[simp] theorem escapedMarkup_nil : escapedMarkup [] = [] := rfl

@[simp] theorem escapedMarkup_cons (c : Char) (text : List Char) :
    escapedMarkup (c :: text) = markupChar c ++ escapedMarkup text := rfl

/-- Escaping goes character by character, so it distributes over concatenation. -/
@[simp] theorem escapedMarkup_append (first second : List Char) :
    escapedMarkup (first ++ second) = escapedMarkup first ++ escapedMarkup second := by
  simp [escapedMarkup]

end CodeMarkup.Text
