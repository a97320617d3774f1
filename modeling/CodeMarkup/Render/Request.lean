import CodeMarkup.Grammar.Resolution
import CodeMarkup.LineSet.Basic
import CodeMarkup.Markup.LineNode
import CodeMarkup.Render.Fault
import CodeMarkup.Theme.Builtin

/-!
# Requests

A request is everything that the drawing of some code depends on. Requests are compared to find out
whether anything changed, and there two languages are the same if their keys are.

To draw a request in colour, its language is resolved first (`Language.resolution`), and then an engine
is given a **query**: the code, the name of a loaded grammar, a theme, and what is to be done to each
line. The lines are numbered for the page to find them, and the requested ones are marked.
-/

namespace CodeMarkup

/-- Everything that a drawing depends on. -/
structure Request where
  /-- the code -/
  code : String
  /-- its language; without one it is not highlighted -/
  language : Option Language
  /-- the lines to mark -/
  lines : LineSet
  /-- the theme's identifier -/
  theme : String

namespace Request

/-- The request that a view starts from. -/
def initial : Request := ⟨"", none, .empty, Theme.cssVariablesName⟩

instance : Inhabited Request := ⟨initial⟩

/-- Whether two optional languages are the same. -/
def sameLanguage : Option Language → Option Language → Bool
  | none, none => true
  | some one, some other => one.same other
  | _, _ => false

/-- Whether two requests ask for the same. -/
def same (one other : Request) : Bool :=
  one.code = other.code && sameLanguage one.language other.language && one.lines = other.lines
    && one.theme = other.theme

/-- The language to highlight, if there is one. -/
def highlighted? (request : Request) : Option Language :=
  request.language.filter (!·.isPlaintext)

end Request

/-! ## Queries -/

/-- What an engine is asked to draw. -/
structure Query where
  /-- the code -/
  code : String
  /-- the name of a loaded grammar -/
  grammar : String
  /-- the theme's identifier -/
  theme : String
  /-- what is done to each line -/
  annotate : Annotation

/-- The property that carries a line's number. -/
def lineNumberProperty : String := "data-line"

/-- The class of a marked line. -/
def markedLineClass : String := "highlighted-line"

/-- Numbers a line, and marks it if it is in a set. -/
def LineSet.annotation (lines : LineSet) : Annotation := fun node =>
  let node := node.setProperty lineNumberProperty (toString node.line)
  if lines.contains node.line then node.addClass markedLineClass else node

/-- The grammar that draws what a primary grammar stands for: TypeScript is drawn with the grammar of its
JSX variant, which understands all of it. -/
def renderName (primary : String) : String :=
  if primary = "typescript" then "tsx" else primary

/-- The query for a request whose language has resolved to a primary grammar. -/
def Request.query (request : Request) (primary : String) : Query where
  code := request.code
  grammar := renderName primary
  theme := request.theme
  annotate := request.lines.annotation

/-! ## Resolving -/

/-- The resolution of a language, given what its supplier answered. -/
def Language.resolution (language : Language) (answer : Except FetchFault Bundle) :
    Except RenderFault Resolution :=
  match answer with
  | .error fault => .error (.fetch language.name fault)
  | .ok bundle =>
    match bundle.resolve? language.name with
    | none => .error (.fetch language.name .noGrammars)
    | some resolution => .ok resolution

end CodeMarkup
