import CodeMarkup.Language.Supply
import CodeMarkup.Render.Highlighter
import CodeMarkup.Text.Escape

/-!
# Renderers

A renderer answers one request after another with a highlighter of its own, at a site from which
built-in languages take their grammars. Grammars are loaded when a request first needs them and stay
loaded, so a later request whose primary grammar is there finds everything in place.

Code without a language to highlight is only escaped. Several requests at a time, over engines that may
be exchanged, are the subject of `CodeMarkup.Render.Step`.
-/

namespace CodeMarkup

/-- A highlighter and the site from which it is supplied. -/
structure Renderer where
  /-- the site -/
  site : Site
  /-- the highlighter -/
  highlighter : Highlighter

/-- Work of a renderer. -/
abbrev RenderM := EStateM RenderFault Renderer

/-- The code of a request without colours. -/
def Request.plainMarkup (request : Request) : String :=
  Text.escapePlain request.code

namespace Renderer

/-- Where the renderer's libraries are looked for. -/
def surroundings (renderer : Renderer) : Surroundings :=
  ⟨renderer.site.host.disk, renderer.site.host.current⟩

/-- Asks a language's supplier and resolves what it yields. -/
def resolve (language : Language) : RenderM Resolution := fun renderer =>
  match language.supplier with
  | none => .error (.noSupplier language.key) renderer
  | some supplier =>
    let (answer, site) := match supplier.fetch renderer.site with
      | .ok bundle site => (.ok bundle, site)
      | .error fault site => (.error fault, site)
    match language.resolution answer with
    | .ok resolution => .ok resolution { renderer with site := site }
    | .error fault => .error fault { renderer with site := site }

/-- Loads what a resolution lists, unless its primary grammar is loaded. -/
def ensureLoaded (resolution : Resolution) : RenderM Unit := fun renderer =>
  let table := renderer.highlighter.table
  if table.isLoaded resolution.primary then .ok () renderer
  else
    let (table, result) := table.load renderer.surroundings resolution.definitions
    let renderer := { renderer with highlighter := { renderer.highlighter with table := table } }
    match result with
    | .ok () => .ok () renderer
    | .error failure => .error (.load failure) renderer

/-- Draws a request. -/
def render (request : Request) : RenderM String := do
  match request.highlighted? with
  | none => return request.plainMarkup
  | some language =>
    let resolution ← resolve language
    ensureLoaded resolution
    let renderer ← get
    match renderer.highlighter.draw (request.query resolution.primary) with
    | .ok markup => return markup
    | .error fault => throw fault

end Renderer

end CodeMarkup
