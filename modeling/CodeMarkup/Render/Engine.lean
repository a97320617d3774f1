import CodeMarkup.Render.Highlighter

/-!
# Engines

What a renderer asks of an engine is little: whether a name is loaded, to load an ordered list of
definitions as one unit, and to draw a query. Any state with these operations serves as an engine
(`EngineModel`).

A load takes time, and other things happen meanwhile. So it is a state of its own that goes one step at
a time, each step in the world as it then is: what the libraries hold, whether the engine is willing.
-/

namespace CodeMarkup

/-- The operations by which a state serves as an engine. -/
structure EngineModel (World Engine Load : Type) where
  /-- whether a name is loaded -/
  isLoaded : Engine → String → Bool
  /-- a load of an ordered list that has not begun -/
  ofList : List GrammarDefinition → Load
  /-- one step of a load -/
  advance : World → Engine → Load → Engine × Progress Load
  /-- the markup that answers a query -/
  draw : World → Engine → Query → Except RenderFault String

/-- A highlighter as an engine. -/
def Highlighter.model : EngineModel Surroundings Highlighter TableLoad where
  isLoaded highlighter name := highlighter.table.isLoaded name
  ofList := TableLoad.ofList
  advance around highlighter load :=
    let (table, progress) := highlighter.table.advance around load
    ({ highlighter with table := table }, progress)
  draw _ highlighter query := highlighter.draw query

end CodeMarkup
