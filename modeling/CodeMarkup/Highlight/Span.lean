import CodeMarkup.Highlight.Tree
import CodeMarkup.Text.Line

/-!
# Highlight spans

A listing is coloured line by line, so each node that carries a colour is cut at line ends into
**spans**, one for each row it reaches. Columns are byte offsets inside the line. A span that would be
empty is left out.

Which nodes carry a colour: those with a kind of their own that either have no children or are
coloured as a whole (strings and comments, whose parts then lie inside them). Spans stand in pre-order,
so of several spans over one column the first comes from the outermost node, and `kindAt` takes the
first.

A tree may be laid over a text other than the one it was parsed from. Rows past the text then have no
line to colour, and offsets before a line's start count as the start.
-/

namespace CodeMarkup

/-- A coloured stretch of one line. -/
structure Span where
  /-- the first column -/
  start : Nat
  /-- the column after the last -/
  stop : Nat
  /-- the kind that colours it -/
  kind : Kind
  deriving DecidableEq, Repr

/-- Whether a column lies in a span. -/
def Span.covers (span : Span) (column : Nat) : Bool :=
  span.start ≤ column && column < span.stop

/-- The kind at a column: that of the first span over it. -/
def kindAt (spans : List Span) (column : Nat) : Kind :=
  match spans.find? (·.covers column) with
  | some span => span.kind
  | none => .plain

/-- A line of a text: its row and the bytes from its start to the start of the next line. -/
structure LineBounds where
  /-- the row, from 0 -/
  row : Nat
  /-- the line's first byte -/
  start : Nat
  /-- the first byte of the next line, or the length of the text -/
  stop : Nat
  deriving DecidableEq, Repr

/-- The bounds of consecutive lines, from their starts and the length of the text. -/
def lineBounds (row length : Nat) : List Nat → List LineBounds
  | [] => []
  | [start] => [⟨row, start, length⟩]
  | start :: next :: rest => ⟨row, start, next⟩ :: lineBounds (row + 1) length (next :: rest)

/-- Whether a node carries a colour. -/
def Classified.carries (item : Classified) : Bool :=
  item.kind ≠ .plain && (item.leaf || Kind.isWhole item.node.name)

/-- The stretch of a line that a node reaches, as columns. -/
def Node.reach (node : Node) (line : LineBounds) : Nat × Nat :=
  (if line.row = node.startRow then node.start - line.start else 0,
    if line.row = node.stopRow then node.stop - line.start else line.stop - line.start)

/-- The span that a node puts on a line, if it reaches the line and covers something there. -/
def Classified.spanOn (line : LineBounds) (item : Classified) : Option Span :=
  if item.carries ∧ item.node.startRow ≤ line.row ∧ line.row ≤ item.node.stopRow then
    let (start, stop) := item.node.reach line
    if start < stop then some ⟨start, stop, item.kind⟩ else none
  else none

/-- The spans of every line of a text under a syntax tree. -/
def highlight (tree : Tree) (text : List Char) : List (List Span) :=
  let items := tree.classify
  (lineBounds 0 (Text.byteLength text) (Text.lineStarts text)).map fun line =>
    items.filterMap (Classified.spanOn line)

theorem length_lineBounds (row length : Nat) (starts : List Nat) :
    (lineBounds row length starts).length = starts.length := by
  fun_induction lineBounds row length starts <;> simp_all

end CodeMarkup
