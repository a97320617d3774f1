import CodeMarkup.Grammar.Table
import CodeMarkup.Highlight.Span
import CodeMarkup.Markup.Listing
import CodeMarkup.Render.Request

/-!
# Highlighters

A highlighter draws code in colour. It has a table of loaded grammars, a stock of themes and a parser
that the grammars drive. The built-in themes are in stock from the start; another one takes the place of
a theme of its name.

To draw a query, the grammar is looked up first, then the theme, and only then the code is parsed.
-/

namespace CodeMarkup

/-- What turns code into a syntax tree, driven by a grammar; it may give none. -/
abbrev Parser := Grammar → String → Option Tree

/-- What draws code in colour. -/
structure Highlighter where
  /-- the loaded grammars -/
  table : GrammarTable
  /-- the themes in stock, one to a name -/
  themes : List Theme
  /-- the parser -/
  parser : Parser

namespace Highlighter

/-- A highlighter with the built-in themes and no grammar. -/
def ofParser (parser : Parser) : Highlighter :=
  ⟨.empty, Theme.builtinNames.filterMap Theme.builtin?, parser⟩

/-- The highlighter with a theme in stock. -/
def withTheme (highlighter : Highlighter) (theme : Theme) : Highlighter :=
  { highlighter with
    themes := theme :: highlighter.themes.filter (·.name ≠ theme.name) }

/-- The theme of a name. -/
def theme? (highlighter : Highlighter) (name : String) : Option Theme :=
  highlighter.themes.find? (·.name == name)

/-- The listing that answers a query. -/
def list (highlighter : Highlighter) (query : Query) : Except RenderFault Listing :=
  match highlighter.table.find? query.grammar with
  | none => .error (.unknownGrammar query.grammar)
  | some grammar =>
    match highlighter.theme? query.theme with
    | none => .error (.unknownTheme query.theme)
    | some theme =>
      match highlighter.parser grammar query.code with
      | none => .error (.noTree query.grammar)
      | some tree =>
        let code := query.code.toList
        .ok (.ofCode code (highlight tree code) theme query.annotate)

/-- The markup that answers a query. -/
def draw (highlighter : Highlighter) (query : Query) : Except RenderFault String :=
  (highlighter.list query).map Listing.markup

/-- A theme put in stock is found under its name, and every other name finds what it found before. -/
theorem theme?_withTheme (highlighter : Highlighter) (theme : Theme) (name : String) :
    (highlighter.withTheme theme).theme? name
      = if name = theme.name then some theme else highlighter.theme? name := by
  by_cases h : name = theme.name
  · simp [withTheme, theme?, h]
  · have hb : (theme.name == name) = false := by simpa using Ne.symm h
    simp only [withTheme, theme?, List.find?_cons, hb, h, if_false, List.find?_filter]
    congr 1
    funext other
    by_cases ho : other.name = name
    · simp [ho, h]
    · simp [ho]

end Highlighter

end CodeMarkup
