import CodeMarkup.Highlight.Kind
import CodeMarkup.Theme.Color

/-!
# Themes

A theme gives a listing its background, its text colour and a style for each kind of token. A paint is
either a colour or a custom property that the surrounding page defines, so that one theme can follow
the page's own palette.

Nine styles cover the fifteen kinds: kinds that a palette rarely tells apart share a style, and plain
tokens have none, so that they inherit the text colour.
-/

namespace CodeMarkup

/-- A colour value of a style sheet. -/
inductive Paint where
  /-- a fixed colour -/
  | color (value : Color)
  /-- a custom property of the page, by its name -/
  | property (name : String)
  deriving DecidableEq, Repr

/-- The paint of a packed colour. -/
def Paint.ofPacked (packed : UInt32) : Paint :=
  .color (.ofPacked packed)

/-- A paint as a style sheet writes it. -/
def Paint.css : Paint → List Char
  | .color value => value.css
  | .property name => "var(".toList ++ name.toList ++ [')']

/-- How a token is drawn. -/
structure Style where
  /-- the paint of its characters -/
  paint : Paint
  /-- whether they are bold -/
  bold : Bool := false
  /-- whether they are italic -/
  italic : Bool := false
  deriving DecidableEq, Repr

/-- A style as inline declarations. -/
def Style.css (style : Style) : List Char :=
  "color:".toList ++ style.paint.css
    ++ (if style.bold then ";font-weight:bold".toList else [])
    ++ (if style.italic then ";font-style:italic".toList else [])

/-- How a listing is drawn. -/
structure Theme where
  /-- the identifier by which the theme is chosen -/
  name : String
  /-- the paint behind the text -/
  background : Paint
  /-- the paint of plain text -/
  foreground : Paint
  /-- reserved words -/
  keywords : Style
  /-- strings -/
  strings : Style
  /-- numbers and constants -/
  numbers : Style
  /-- comments -/
  comments : Style
  /-- function names and labels -/
  functions : Style
  /-- type and module names -/
  types : Style
  /-- variables, members and parameters -/
  variableNames : Style
  /-- operators -/
  operators : Style
  /-- punctuation -/
  punctuation : Style
  deriving DecidableEq, Repr

/-- The style of a kind of token; a kind without one inherits the text colour. -/
def Theme.style? (theme : Theme) : Kind → Option Style
  | .keyword => some theme.keywords
  | .string => some theme.strings
  | .number | .constant => some theme.numbers
  | .comment => some theme.comments
  | .function | .label => some theme.functions
  | .type | .moduleName => some theme.types
  | .variable | .property | .parameter => some theme.variableNames
  | .operator => some theme.operators
  | .punctuation => some theme.punctuation
  | .plain => none

/-- Exactly the plain tokens have no style. -/
theorem Theme.style?_eq_none_iff (theme : Theme) (kind : Kind) :
    theme.style? kind = none ↔ kind = .plain := by
  cases kind <;> simp [style?]

end CodeMarkup
