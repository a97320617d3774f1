import CodeMarkup.Render.Studio
import CodeMarkup.Text.Escape

/-!
# Steps of a studio

A studio changes by actions: a call is made, a supplier answers a task, or a task takes its next step.
Any order of actions that is possible at all may happen; nothing here chooses between them.

A drawing goes through its phases as follows. It looks up the engine of its station and stays with that
one. Without an engine, or without a language to highlight, the code is only escaped. Otherwise the
supplier is asked, and the language resolves. If the primary grammar is loaded, the drawing goes ahead.
If not, it takes the station's lock for that name, which one task at a time can hold, and checks again,
for another drawing may have loaded the grammar while this one waited. Only a drawing that then still
finds it missing loads the list. So concurrent drawings of one language load it once, and after a load
that failed the next in line tries again.
-/

namespace CodeMarkup

/-- What can happen in a studio. -/
inductive Action (World : Type) where
  /-- something is asked of a view -/
  | call (view : Nat) (call : ViewCall)
  /-- the drawing of a request is asked of a station -/
  | render (station : Nat) (request : Request)
  /-- a supplier answers a task -/
  | answer (task : Nat) (answer : Except FetchFault Bundle)
  /-- a task takes its next step, in the world as it is -/
  | advance (task : Nat) (world : World)

namespace Studio

variable {World Engine Load : Type}

/-! ## Calls of a view -/

/-- The studio with the next generation of a view stamped, for a drawing of the given request. -/
def stamp (studio : Studio Engine Load) (task index : Nat) (view : View) (request : Request) :
    Studio Engine Load :=
  let generation := view.generation + 1
  (studio.modifyView index fun view =>
      { view with request := request, generation := generation }).setStage task
    (.running ⟨request, some ⟨index, generation⟩⟩ .reading)

/-- The first step of a call: one that makes no difference ends with it. -/
def receive (studio : Studio Engine Load) (task index : Nat) (view : View) (station : Station) :
    ViewCall → Studio Engine Load
  | .change change =>
    let next := change.apply view.request
    if next.same view.request then studio.setStage task (.ended .unchanged)
    else studio.stamp task index view next
  | .setEngine engine =>
    if engine = station.engine then studio.setStage task (.ended .unchanged)
    else studio.setStage task (.swapping index engine)
  | .refresh => studio.stamp task index view view.request

/-! ## Drawings -/

/-- How a drawing with an engine starts: with the code escaped, or with its supplier asked. -/
def firstPhase (request : Request) : Option Nat → Phase Load
  | none => .drawn none (.ok (Text.escapePlain request.code))
  | some engine =>
    match request.highlighted? with
    | none => .drawn (some engine) (.ok (Text.escapePlain request.code))
    | some language =>
      if language.supplier.isNone then .drawn (some engine) (.error (.noSupplier language.key))
      else .fetching engine language

/-- The last step of a drawing: it is handed over, or it is shown unless a later one was stamped. -/
def finish (studio : Studio Engine Load) (task : Nat) (run : Run) (engine : Option Nat)
    (result : Except RenderFault String) : Option (Studio Engine Load) :=
  match result with
  | .error fault => some (studio.setStage task (.ended (.failed run fault)))
  | .ok markup =>
    match run.stamp with
    | none => some (studio.setStage task (.ended (.delivered run engine markup)))
    | some stamp => do
      let view ← studio.views[stamp.view]?
      if view.generation ≠ stamp.generation then
        return studio.setStage task (.ended (.stale run engine markup))
      let studio := studio.setStage task (.ended (.applied run engine markup))
      -- the same markup once more is no change
      if view.shown = markup then return studio
      return studio.modifyView stamp.view fun view =>
        { view with shown := markup, changes := view.changes + 1 }

/-- The next step of a drawing at a station. A drawing whose supplier was asked waits for the answer, and
one whose lock is held waits for its release. -/
def draw (model : EngineModel World Engine Load) (world : World) (studio : Studio Engine Load)
    (task index : Nat) (station : Station) (run : Run) :
    Phase Load → Option (Studio Engine Load)
  | .reading => some (studio.setStage task (.running run (firstPhase run.request station.engine)))
  | .fetching .. => none
  | .checking number resolution => do
    let engine ← studio.engines[number]?
    return studio.setStage task <| .running run <|
      if model.isLoaded engine resolution.primary then .drawing number resolution
      else .queued number resolution
  | .queued number resolution =>
    -- the lock is another task's, which gives it back
    if resolution.primary ∈ station.held then none
    else some <| (studio.modifyStation index fun station =>
        { station with held := resolution.primary :: station.held }).setStage task
      (.running run (.holding number resolution))
  | .holding number resolution => do
    -- the task that had the lock before may have loaded the grammar
    let engine ← studio.engines[number]?
    return studio.setStage task <| .running run <|
      if model.isLoaded engine resolution.primary then .unlocking number resolution (.ok ())
      else .starting number resolution
  | .starting number resolution =>
    some <| (studio.modifyStation index fun station =>
        { station with loading := station.loading.raise }).setStage task
      (.running run (.loading number resolution (model.ofList resolution.definitions)))
  | .loading number resolution load => do
    let engine ← studio.engines[number]?
    let (engine, progress) := model.advance world engine load
    let studio := studio.modifyEngine number fun _ => engine
    match progress with
    | .going load =>
      return studio.setStage task (.running run (.loading number resolution load))
    | .ended result =>
      return (studio.modifyStation index fun station =>
          { station with loading := station.loading.lower }).setStage task
        (.running run (.unlocking number resolution result))
  | .unlocking number resolution result =>
    some <| (studio.modifyStation index fun station =>
        { station with held := station.held.erase resolution.primary }).setStage task
      (.running run (match result with
        | .ok () => .drawing number resolution
        | .error failure => .drawn (some number) (.error (.load failure))))
  | .drawing number resolution => do
    let engine ← studio.engines[number]?
    return studio.setStage task <| .running run <|
      .drawn (some number) (model.draw world engine (run.request.query resolution.primary))
  | .drawn engine result => studio.finish task run engine result

/-! ## Actions -/

/-- The next step of a task, if it can take one now. -/
def advance (model : EngineModel World Engine Load) (world : World) (studio : Studio Engine Load)
    (number : Nat) : Option (Studio Engine Load) := do
  let task ← studio.tasks[number]?
  let station ← studio.stations[task.station]?
  match task.stage with
  | .called index call =>
    let view ← studio.views[index]?
    return studio.receive number index view station call
  | .swapping index engine =>
    return (studio.modifyStation task.station fun station =>
      { station with engine := engine }).setStage number (.stamping index)
  | .stamping index =>
    let view ← studio.views[index]?
    return studio.stamp number index view view.request
  | .running run phase => studio.draw model world number task.station station run phase
  | .ended _ => none

/-- A task's supplier answers, if the task is waiting for that. -/
def answer (studio : Studio Engine Load) (number : Nat) (answer : Except FetchFault Bundle) :
    Option (Studio Engine Load) := do
  let task ← studio.tasks[number]?
  match task.stage with
  | .running run (.fetching engine language) =>
    return studio.setStage number <| .running run <|
      match language.resolution answer with
      | .ok resolution => .checking engine resolution
      | .error fault => .drawn (some engine) (.error fault)
  | _ => none

/-- What an action leads to, if it can happen. -/
def step (model : EngineModel World Engine Load) (studio : Studio Engine Load) :
    Action World → Option (Studio Engine Load)
  | .call view call => do
    let state ← studio.views[view]?
    return studio.addTask state.station (.called view call)
  | .render station request => do
    guard (station < studio.stations.length)
    return studio.addTask station (.running ⟨request, none⟩ .reading)
  | .answer task answer => studio.answer task answer
  | .advance task world => studio.advance model world task

/-- What actions lead to, one after another. -/
def run (model : EngineModel World Engine Load) (studio : Studio Engine Load) :
    List (Action World) → Option (Studio Engine Load)
  | [] => some studio
  | action :: rest => do
    let studio ← studio.step model action
    studio.run model rest

end Studio

end CodeMarkup
