import CodeMarkup.Render.Engine
import CodeMarkup.Render.Loading

/-!
# Studios

A studio is everything that renders at work share. **Engines** hold loaded grammars. A **station** is
where renders are run: it has at most one engine installed, which may be exchanged at any time, one
lock for each grammar name, and a loading flag. A **view** belongs to a station and keeps a request and
the markup that is shown for it. A **task** is one call that was made: a change of a view, or the
drawing of a request that no view keeps.

Every change of a view that asks for a new drawing stamps it with the view's next **generation**. When
the drawing is done it is shown only if no later one has been stamped, so a slow drawing never covers
a newer one. A drawing that fails leaves what is shown as it is.

Where a task stands is its **stage**, and where its drawing stands is the drawing's **phase**. Both are
cut so fine that between any two of them other tasks may take steps; what the steps are is said in
`CodeMarkup.Render.Step`.
-/

namespace CodeMarkup

/-! ## Calls -/

/-- A change of a view's request. -/
inductive Change where
  /-- another request altogether -/
  | request (request : Request)
  /-- other code -/
  | code (code : String)
  /-- another language -/
  | language (language : Option Language)
  /-- other lines to mark -/
  | lines (lines : LineSet)
  /-- another theme -/
  | theme (theme : String)

/-- The request after a change. -/
def Change.apply (current : Request) : Change → Request
  | .request other => other
  | .code text => { current with code := text }
  | .language choice => { current with language := choice }
  | .lines set => { current with lines := set }
  | .theme name => { current with theme := name }

/-- What can be asked of a view. -/
inductive ViewCall where
  /-- to change its request, and draw it if that made a difference -/
  | change (change : Change)
  /-- to install another engine, or none, at its station, and draw its request if that is another -/
  | setEngine (engine : Option Nat)
  /-- to draw its request again -/
  | refresh

/-! ## Drawings -/

/-- What a drawing is for: a view, at one of its generations. -/
structure Stamp where
  /-- the view -/
  view : Nat
  /-- the generation -/
  generation : Nat
  deriving DecidableEq, Repr

/-- A drawing. -/
structure Run where
  /-- what is drawn -/
  request : Request
  /-- the view it is for, if it is for one -/
  stamp : Option Stamp

/-- Where a drawing stands. Engines are given by their numbers. -/
inductive Phase (Load : Type) where
  /-- the installed engine is to be looked up -/
  | reading
  /-- the language's supplier was asked -/
  | fetching (engine : Nat) (language : Language)
  /-- the language has resolved -/
  | checking (engine : Nat) (resolution : Resolution)
  /-- the primary grammar was not loaded, and its lock is to be taken -/
  | queued (engine : Nat) (resolution : Resolution)
  /-- the lock is held, and the primary grammar is to be checked again -/
  | holding (engine : Nat) (resolution : Resolution)
  /-- it was still not loaded -/
  | starting (engine : Nat) (resolution : Resolution)
  /-- the engine is loading -/
  | loading (engine : Nat) (resolution : Resolution) (load : Load)
  /-- nothing remains to be loaded, or loading failed, and the lock is to be released -/
  | unlocking (engine : Nat) (resolution : Resolution) (result : Except LoadFailure Unit)
  /-- the grammars are in place -/
  | drawing (engine : Nat) (resolution : Resolution)
  /-- the drawing is done, with this engine or without one, or has failed -/
  | drawn (engine : Option Nat) (result : Except RenderFault String)

/-- What became of a call. -/
inductive Ending where
  /-- it made no difference -/
  | unchanged
  /-- its drawing failed -/
  | failed (run : Run) (fault : RenderFault)
  /-- its drawing is for no view, and was handed over -/
  | delivered (run : Run) (engine : Option Nat) (markup : String)
  /-- its drawing is what its view shows -/
  | applied (run : Run) (engine : Option Nat) (markup : String)
  /-- its drawing came too late to be shown -/
  | stale (run : Run) (engine : Option Nat) (markup : String)

/-- Where a call stands. -/
inductive Stage (Load : Type) where
  /-- it was made, and nothing has been done -/
  | called (view : Nat) (call : ViewCall)
  /-- another engine is to be installed -/
  | swapping (view : Nat) (engine : Option Nat)
  /-- a drawing of the view's request is to be stamped -/
  | stamping (view : Nat)
  /-- it is drawing -/
  | running (run : Run) (phase : Phase Load)
  /-- it is over -/
  | ended (ending : Ending)

/-- Whether a call is over. -/
def Stage.isEnded {Load : Type} : Stage Load → Bool
  | .ended _ => true
  | _ => false

/-! ## The studio -/

/-- Where renders are run. -/
structure Station where
  /-- the number of the installed engine -/
  engine : Option Nat
  /-- the loading flag -/
  loading : LoadingFlag
  /-- the grammar names whose locks are held -/
  held : List String
  deriving DecidableEq, Repr

/-- A station with an engine, or none, at which nothing has been run. -/
def Station.ofEngine (engine : Option Nat) : Station := ⟨engine, .idle, []⟩

/-- What keeps shown markup in step with a request. -/
structure View where
  /-- the number of its station -/
  station : Nat
  /-- the request as last changed -/
  request : Request
  /-- the generation last stamped -/
  generation : Nat
  /-- the markup that is shown -/
  shown : String
  /-- how often that markup has changed -/
  changes : Nat

/-- A view at a station, with nothing to draw and nothing shown. -/
def View.ofStation (station : Nat) : View := ⟨station, .initial, 0, "", 0⟩

/-- A call and where it stands. -/
structure Task (Load : Type) where
  /-- the number of the station that runs it -/
  station : Nat
  /-- where it stands -/
  stage : Stage Load

/-- Everything that renders at work share. -/
structure Studio (Engine Load : Type) where
  /-- the engines -/
  engines : List Engine
  /-- the stations -/
  stations : List Station
  /-- the views -/
  views : List View
  /-- the calls made so far, in order -/
  tasks : List (Task Load)

namespace Studio

variable {Engine Load : Type}

/-- A studio in which nothing has been called. The stations are given by their engines, and the views by
their stations. -/
def initial (engines : List Engine) (stations : List (Option Nat)) (views : List Nat) :
    Studio Engine Load :=
  ⟨engines, stations.map .ofEngine, views.map .ofStation, []⟩

/-- The studio with an engine changed. -/
def modifyEngine (studio : Studio Engine Load) (engine : Nat) (f : Engine → Engine) :
    Studio Engine Load :=
  { studio with engines := studio.engines.modify engine f }

/-- The studio with a station changed. -/
def modifyStation (studio : Studio Engine Load) (station : Nat) (f : Station → Station) :
    Studio Engine Load :=
  { studio with stations := studio.stations.modify station f }

/-- The studio with a view changed. -/
def modifyView (studio : Studio Engine Load) (view : Nat) (f : View → View) :
    Studio Engine Load :=
  { studio with views := studio.views.modify view f }

/-- The studio with a task at another stage. -/
def setStage (studio : Studio Engine Load) (task : Nat) (stage : Stage Load) :
    Studio Engine Load :=
  { studio with tasks := studio.tasks.modify task fun task => { task with stage := stage } }

/-- The studio with a call made. -/
def addTask (studio : Studio Engine Load) (station : Nat) (stage : Stage Load) :
    Studio Engine Load :=
  { studio with tasks := studio.tasks ++ [⟨station, stage⟩] }

end Studio

end CodeMarkup
