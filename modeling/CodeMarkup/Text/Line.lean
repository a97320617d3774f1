import CodeMarkup.Text.Split

/-!
# Lines of a text

A text is cut into lines at its newlines; a text without one is a single line, and a newline at the
very end opens a last, empty line. Positions inside a text are counted in UTF-8 bytes, as parsers
report them, so a line also has the byte offset at which it begins.
-/

namespace CodeMarkup.Text

/-- The number of bytes of a run of characters. -/
def byteLength : List Char → Nat
  | [] => 0
  | c :: rest => c.utf8Size + byteLength rest

@[simp] theorem byteLength_nil : byteLength [] = 0 := rfl

@[simp] theorem byteLength_cons (c : Char) (chars : List Char) :
    byteLength (c :: chars) = c.utf8Size + byteLength chars := rfl

@[simp] theorem byteLength_append (first second : List Char) :
    byteLength (first ++ second) = byteLength first + byteLength second := by
  induction first with
  | nil => simp
  | cons c rest ih => simp [ih, Nat.add_assoc]

/-- The lines of a text, without their newlines. -/
def lines (text : List Char) : List (List Char) :=
  split '\n' text

/-- A text has one line more than it has newlines. -/
theorem length_lines (text : List Char) : (lines text).length = text.count '\n' + 1 :=
  length_split '\n' text

/-- The lines of a text with newlines between them are the text. -/
theorem join_lines (text : List Char) : join '\n' (lines text) = text :=
  join_split '\n' text

/-- The starts of the lines after the first, for a text whose first byte is at `offset`. -/
def laterStarts (offset : Nat) : List Char → List Nat
  | [] => []
  | c :: rest =>
    let next := offset + c.utf8Size
    if c = '\n' then next :: laterStarts next rest else laterStarts next rest

/-- The byte offset at which each line begins. -/
def lineStarts (text : List Char) : List Nat :=
  0 :: laterStarts 0 text

/-- There is one start per newline, besides the first. -/
theorem length_laterStarts (offset : Nat) (text : List Char) :
    (laterStarts offset text).length = text.count '\n' := by
  induction text generalizing offset with
  | nil => rfl
  | cons c rest ih => by_cases h : c = '\n' <;> simp [laterStarts, h, ih]

/-- A line without the one carriage return that may end it. -/
def withoutReturn (line : List Char) : List Char :=
  if line.getLast? = some '\r' then line.dropLast else line

end CodeMarkup.Text
