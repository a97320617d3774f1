import CodeMarkup.Markup.LineNode
import CodeMarkup.Markup.Token
import CodeMarkup.Text.Escape
import CodeMarkup.Theme.Basic

/-!
# Listings

A listing is what a reader sees of highlighted code: a block with a theme, one line after another, each
with its attributes and its styled tokens. It is built as a value first (`Listing.ofCode`) and written
as markup afterwards (`Listing.markup`), and the writing is the only place where text from outside is
put between tags. Names, classes, property values and code are escaped there; style declarations and
property names come from the theme and from annotations and are written as they are.

A line's text leaves out the newline that ends it and one carriage return before that.
-/

namespace CodeMarkup

/-- A token with the style it is drawn in, if it has one of its own. -/
structure StyledToken where
  /-- the style, or `none` where the text colour is inherited -/
  style : Option Style
  /-- the token's characters -/
  text : List Char
  deriving DecidableEq, Repr

/-- A line of a listing. -/
structure ListedLine where
  /-- the line's classes -/
  classes : List String
  /-- the line's properties -/
  properties : List (String × String)
  /-- the line's text, in styled tokens -/
  tokens : List StyledToken
  deriving DecidableEq, Repr

/-- A block of highlighted code. -/
structure Listing where
  /-- the theme's name -/
  themeName : String
  /-- the paint behind the text -/
  background : Paint
  /-- the paint of plain text -/
  foreground : Paint
  /-- the lines -/
  lines : List ListedLine
  deriving DecidableEq, Repr

/-! ## Building -/

/-- A line of code, annotated and cut into styled tokens. -/
def ListedLine.ofText (theme : Theme) (node : LineNode) (spans : List Span) (text : List Char) :
    ListedLine where
  classes := node.classes
  properties := node.properties
  tokens := (CodeMarkup.tokens (kindAt spans) 0 text).map fun token =>
    ⟨theme.style? token.kind, token.text⟩

/-- The lines of a listing, the first of which has the given number. Lines past the last list of spans
have no colours. -/
def listLines (theme : Theme) (annotate : Annotation) (number : Nat) (spans : List (List Span)) :
    List (List Char) → List ListedLine
  | [] => []
  | text :: rest =>
    .ofText theme (annotate (.ofNumber number)) (spans.headD []) (Text.withoutReturn text)
      :: listLines theme annotate (number + 1) spans.tail rest

/-- The listing of a code under a theme, with the given spans on its lines. -/
def Listing.ofCode (code : List Char) (spans : List (List Span)) (theme : Theme)
    (annotate : Annotation) : Listing where
  themeName := theme.name
  background := theme.background
  foreground := theme.foreground
  lines := listLines theme annotate 1 spans (Text.lines code)

theorem length_listLines (theme : Theme) (annotate : Annotation) (number : Nat)
    (spans : List (List Span)) (texts : List (List Char)) :
    (listLines theme annotate number spans texts).length = texts.length := by
  induction texts generalizing number spans with
  | nil => rfl
  | cons text rest ih => simp [listLines, ih]

/-- A listing has one line more than its code has newlines. -/
theorem Listing.length_lines_ofCode (code : List Char) (spans : List (List Span)) (theme : Theme)
    (annotate : Annotation) :
    (ofCode code spans theme annotate).lines.length = code.count '\n' + 1 := by
  simp [ofCode, length_listLines, Text.length_lines]

/-! ## Writing -/

/-- An attribute whose value is already safe. -/
def attributeText (name value : List Char) : List Char :=
  ' ' :: name ++ "=\"".toList ++ value ++ ['"']

/-- A span element around some content, with its attributes written out. -/
def spanElement (attributes content : List Char) : List Char :=
  "<span".toList ++ attributes ++ ['>'] ++ content ++ "</span>".toList

/-- A token: its text, inside a styled span where it has a style. -/
def StyledToken.markup (token : StyledToken) : List Char :=
  match token.style with
  | some style =>
    spanElement (attributeText "style".toList style.css) (Text.escapedMarkup token.text)
  | none => Text.escapedMarkup token.text

/-- The attributes of a line: its classes, then its properties. -/
def ListedLine.attributes (line : ListedLine) : List Char :=
  attributeText "class".toList (Text.escapedMarkup (" ".intercalate line.classes).toList)
    ++ line.properties.flatMap fun (name, value) =>
      attributeText name.toList (Text.escapedMarkup value.toList)

/-- A line as markup. -/
def ListedLine.markup (line : ListedLine) : List Char :=
  spanElement line.attributes (line.tokens.flatMap StyledToken.markup)

/-- The opening of the block. -/
def Listing.opening (listing : Listing) : List Char :=
  "<pre".toList
    ++ attributeText "class".toList ("lark ".toList ++ Text.escapedMarkup listing.themeName.toList)
    ++ attributeText "style".toList
      ("background-color:".toList ++ listing.background.css
        ++ ";color:".toList ++ listing.foreground.css)
    ++ attributeText "tabindex".toList ['0']
    ++ "><code>".toList

/-- The end of the block. -/
def Listing.closing : List Char := "</code></pre>".toList

/-- The listing as markup. -/
def Listing.markup (listing : Listing) : String :=
  String.ofList
    (listing.opening ++ Text.join '\n' (listing.lines.map ListedLine.markup) ++ Listing.closing)

end CodeMarkup
