import CodeMarkup.Render.Engine
import CodeMarkup.Text.Split

/-!
# Rehearsal engines

To rehearse how renders meet, an engine without grammars is enough. It remembers the names that were
loaded, refuses a load when it is told to, and draws code in a way that shows what it was asked: the
grammar and the theme on the first line, and in front of each line of code the classes and the number it
was annotated with.
-/

namespace CodeMarkup

/-- An engine that remembers names. -/
structure RehearsalEngine where
  /-- the loaded names, the oldest first -/
  loaded : List String
  deriving DecidableEq, Repr

namespace RehearsalEngine

/-- The engine with more names loaded. -/
def add (engine : RehearsalEngine) (names : List String) : RehearsalEngine :=
  ⟨names.foldl (fun loaded name => if name ∈ loaded then loaded else loaded ++ [name])
    engine.loaded⟩

/-- The names of a list of definitions, as messages call them. -/
def shownNames (definitions : List GrammarDefinition) : List String :=
  definitions.map GrammarDefinition.shownName

/-- A line of code with what it was annotated with. -/
def drawLine (node : LineNode) (text : List Char) : List Char :=
  '\n' :: '[' :: (" ".intercalate node.classes).toList
    ++ '|' :: ((node.property? lineNumberProperty).getD "-").toList ++ ']' :: text

/-- The answer to a query. -/
def draw (engine : RehearsalEngine) (query : Query) : Except RenderFault String :=
  if query.grammar ∈ engine.loaded then
    let lines := Text.split '\n' query.code.toList
    .ok (query.grammar ++ "|" ++ query.theme ++ String.ofList
      (lines.zipIdx.flatMap fun (text, index) =>
        drawLine (query.annotate (.ofNumber (index + 1))) text))
  else .error (.unknownGrammar query.grammar)

/-- The operations of a rehearsal engine. Whether it refuses is up to the world, and a load takes one
step. -/
def model : EngineModel Bool RehearsalEngine (List String) where
  isLoaded engine name := engine.loaded.contains name
  ofList := shownNames
  advance refusing engine names :=
    if refusing then (engine, .ended (.error ⟨",".intercalate names, .refused⟩))
    else (engine.add names, .ended (.ok ()))
  draw _ engine query := engine.draw query

end RehearsalEngine

end CodeMarkup
