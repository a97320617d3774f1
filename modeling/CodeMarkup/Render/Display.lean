import CodeMarkup.Render.Renderer
import CodeMarkup.Render.Studio

/-!
# Displays

A display is a view with a renderer to itself, of which one thing is asked after another. It keeps a request and the
markup that is shown for it, and draws when a change of the request makes a difference. Each drawing is stamped with
the next generation, and what it has come to is shown only if no later one has been stamped. With one drawing at a
time none is.

Many views that share renderers, whose drawings overlap, are the subject of `CodeMarkup.Render.Step`.
-/

namespace CodeMarkup

/-- A view with a renderer to itself. -/
structure Display where
  /-- the renderer -/
  renderer : Renderer
  /-- the request as last changed -/
  request : Request
  /-- the generation last stamped -/
  generation : Nat
  /-- the markup that is shown -/
  shown : String

/-- What became of a drawing. -/
inductive Shown where
  /-- it is shown -/
  | applied
  /-- it came too late to be shown -/
  | stale
  /-- there was none, as nothing had changed -/
  | unchanged
  deriving DecidableEq, Repr

/-- Work of a display. -/
abbrev DisplayM := EStateM RenderFault Display

namespace Display

/-- A display with nothing to draw and nothing shown. -/
def ofRenderer (renderer : Renderer) : Display := ⟨renderer, .initial, 0, ""⟩

/-- The display with the next generation stamped, for a drawing of the given request. -/
def stamp (display : Display) (request : Request) : Display :=
  { display with request := request, generation := display.generation + 1 }

/-- Draws the request as it is, stamped with a generation. A drawing that fails leaves what is shown as it is. -/
def draw (generation : Nat) : DisplayM Shown := fun display =>
  match display.renderer.render display.request with
  | .error fault renderer => .error fault { display with renderer := renderer }
  | .ok markup renderer =>
    let display := { display with renderer := renderer }
    if display.generation = generation then .ok .applied { display with shown := markup }
    else .ok .stale display

/-- Changes the request, and draws it if that made a difference. -/
def change (change : Change) : DisplayM Shown := fun display =>
  let next := change.apply display.request
  if next.same display.request then .ok .unchanged display
  else
    let display := display.stamp next
    draw display.generation display

end Display

end CodeMarkup
