import CodeMarkup.Proofs.Studio.Move

/-!
# Moves, as loads see them

Loads see of a move what it does to locks and to engines, and that is little. A move takes the lock of a
primary grammar, or gives one back, or leaves the locks alone (`LockMove`). It finds a grammar missing,
begins a load, takes a load further, ends one, or leaves the engines alone (`LoadMove`). `Move.loadMove` says
that every move is one of either kind, so a step makes a call or is a **turn** of one task (`Turn`).

The loads that a run begins and ends are listed in order (`loadEvents`).
-/

namespace CodeMarkup

variable {World Engine Load : Type}

/-! ## What stages say to loads -/

/-- The name whose lock a drawing has. -/
def Phase.lock? : Phase Load → Option String
  | .holding _ resolution | .starting _ resolution | .loading _ resolution _
  | .unlocking _ resolution _ => some resolution.primary
  | _ => none

/-- The name whose lock a call has. -/
def Stage.lock? : Stage Load → Option String
  | .running _ phase => phase.lock?
  | _ => none

/-- The primary grammar of a load that is going on. -/
def Stage.loads? : Stage Load → Option String
  | .running _ (.loading _ resolution _) => some resolution.primary
  | _ => none

/-- Whether a call has found that it has to load, and has not finished. -/
def Stage.mustLoad : Stage Load → Bool
  | .running _ (.starting ..) | .running _ (.loading ..) => true
  | _ => false

/-- Whether a call is so far that it begins no load any more. -/
def Stage.isPastStart : Stage Load → Bool
  | .running _ (.loading ..) | .running _ (.unlocking ..) | .running _ (.drawing ..)
  | .running _ (.drawn ..) | .ended _ => true
  | _ => false

theorem Stage.lock?_of_loads? {stage : Stage Load} {name : String} (h : stage.loads? = some name) :
    stage.lock? = some name := by
  unfold loads? at h
  split at h
  · exact h
  · cases h

namespace Studio

/-- The names whose locks are held at a station. -/
def locked (studio : Studio Engine Load) (station : Nat) : List String :=
  ((studio.stations[station]?).map (·.held)).getD []

/-! ## The moves -/

/-- What a move at a station does to locks, if its task has one lock before and another after. -/
inductive LockMove (studio next : Studio Engine Load) (station : Nat) (before after : Option String) :
    Prop where
  /-- the locks are left alone -/
  | keep (hsame : after = before) (hlocked : next.locked = studio.locked)
  /-- a lock that is free is taken -/
  | take {name : String} (hbefore : before = none) (hafter : after = some name)
      (hfree : name ∉ studio.locked station)
      (hlocked : ∀ other, next.locked other =
        if other = station then name :: studio.locked station else studio.locked other)
  /-- a lock is given back -/
  | give {name : String} (hbefore : before = some name) (hafter : after = none)
      (hlocked : ∀ other, next.locked other =
        if other = station then (studio.locked station).erase name else studio.locked other)

/-- What a move that leads a task from one stage to another does to loads. -/
inductive LoadMove (model : EngineModel World Engine Load) (studio next : Studio Engine Load) :
    Stage Load → Stage Load → Prop where
  /-- the engines are left alone -/
  | work {before after : Stage Load} (hbefore : before.mustLoad = false)
      (hafter : after.mustLoad = false) (hpast : before.isPastStart = true → after.isPastStart = true)
      (hengines : next.engines = studio.engines) :
    LoadMove model studio next before after
  /-- the primary grammar is not loaded -/
  | missing {run : Run} {index : Nat} {resolution : Resolution} {engine : Engine}
      (hengine : studio.engines[index]? = some engine)
      (hmissing : model.isLoaded engine resolution.primary = false)
      (hengines : next.engines = studio.engines) :
    LoadMove model studio next (.running run (.holding index resolution))
      (.running run (.starting index resolution))
  /-- a load begins -/
  | start {run : Run} {index : Nat} {resolution : Resolution} (hengines : next.engines = studio.engines) :
    LoadMove model studio next (.running run (.starting index resolution))
      (.running run (.loading index resolution (model.ofList resolution.definitions)))
  /-- a load goes on -/
  | load {run : Run} {index : Nat} {resolution : Resolution} {load going : Load} {world : World}
      {engine after : Engine} (hengine : studio.engines[index]? = some engine)
      (hload : model.advance world engine load = (after, .going going))
      (hengines : next.engines = (studio.modifyEngine index fun _ => after).engines) :
    LoadMove model studio next (.running run (.loading index resolution load))
      (.running run (.loading index resolution going))
  /-- a load ends -/
  | loaded {run : Run} {index : Nat} {resolution : Resolution} {load : Load} {world : World}
      {engine after : Engine} {result : Except LoadFailure Unit}
      (hengine : studio.engines[index]? = some engine)
      (hload : model.advance world engine load = (after, .ended result))
      (hengines : next.engines = (studio.modifyEngine index fun _ => after).engines) :
    LoadMove model studio next (.running run (.loading index resolution load))
      (.running run (.unlocking index resolution result))

variable {model : EngineModel World Engine Load} {start studio next : Studio Engine Load}
  {number station : Nat} {action : Action World}

/-- What a change of the locks at a station does to them, there and elsewhere. -/
theorem locked_modifyStation {f : Station → Station} {g : List String → List String}
    (hf : ∀ place, (f place).held = g place.held)
    (hnone : studio.stations[station]? = none → g [] = []) (other : Nat) :
    (studio.modifyStation station f).locked other =
      if other = station then g (studio.locked station) else studio.locked other := by
  rw [locked, modifyStation]
  split
  · rename_i hsame
    rw [hsame, List.getElem?_modify_eq, locked]
    rcases hstation : studio.stations[station]? with _ | place
    · exact (hnone hstation).symm
    · exact hf place
  · rename_i hother
    rw [List.getElem?_modify_ne _ _ (Ne.symm hother), locked]

/-- A change of a station that leaves its locks alone. -/
theorem locked_modifyStation_of_held {f : Station → Station} (hf : ∀ place, (f place).held = place.held) :
    (studio.modifyStation station f).locked = studio.locked := by
  funext other
  rw [locked_modifyStation (g := id) hf fun _ => rfl]
  split
  · rename_i hsame
    rw [hsame, id]
  · rfl

/-- A drawing that has looked up its engine is done, or asks its supplier. -/
theorem firstPhase_cases (request : Request) (engine : Option Nat) :
    (∃ result, (firstPhase request engine : Phase Load) = .drawn engine result) ∨
      ∃ number language, (firstPhase request engine : Phase Load) = .fetching number language := by
  rcases engine with _ | number
  · exact Or.inl ⟨_, rfl⟩
  · rw [firstPhase]
    split
    · exact Or.inl ⟨_, rfl⟩
    · split
      · exact Or.inl ⟨_, rfl⟩
      · exact Or.inr ⟨_, _, rfl⟩

/-- **What every move does to locks and loads.** -/
theorem Move.loadMove {stage : Stage Load} (hmove : Move model studio number station stage next) :
    ∃ after, next.tasks = (studio.setStage number after).tasks ∧
      LockMove studio next station stage.lock? after.lock? ∧ LoadMove model studio next stage after := by
  cases hmove with
  | same | sameEngine | otherEngine | refresh | restamp | change =>
    exact ⟨_, rfl, .keep rfl rfl, .work rfl rfl nofun rfl⟩
  | swap =>
    have hlocked := @locked_modifyStation_of_held Engine Load studio station
    exact ⟨_, rfl, .keep rfl (hlocked fun _ => rfl), .work rfl rfl nofun rfl⟩
  | @read run place =>
    obtain ⟨result, hphase⟩ | ⟨engine, language, hphase⟩ :=
      @firstPhase_cases Load run.request place.engine
    all_goals
      rw [hphase]
      exact ⟨_, rfl, .keep rfl rfl, .work rfl rfl nofun rfl⟩
  | resolve => exact ⟨_, rfl, .keep rfl rfl, .work rfl rfl nofun rfl⟩
  | unresolved => exact ⟨_, rfl, .keep rfl rfl, .work rfl rfl nofun rfl⟩
  | check =>
    refine ⟨_, rfl, ?_⟩
    split <;> exact ⟨.keep rfl rfl, .work rfl rfl nofun rfl⟩
  | @lock run index resolution place hstation hfree =>
    have hheld : studio.locked station = place.held := by rw [locked, hstation]; rfl
    have hthere : studio.stations[station]? = none → [resolution.primary] = [] := by
      rw [hstation]
      nofun
    refine ⟨_, rfl, .take rfl rfl (hheld ▸ hfree) ?_, .work rfl rfl nofun rfl⟩
    exact locked_modifyStation (g := (resolution.primary :: ·)) (fun _ => rfl) hthere
  | recheck hengine =>
    refine ⟨_, rfl, ?_⟩
    split
    · exact ⟨.keep rfl rfl, .work rfl rfl nofun rfl⟩
    · rename_i hmissing
      exact ⟨.keep rfl rfl, .missing hengine (Bool.not_eq_true _ ▸ hmissing) rfl⟩
  | start => exact ⟨_, rfl, .keep rfl (locked_modifyStation_of_held fun _ => rfl), .start rfl⟩
  | load hengine hload => exact ⟨_, rfl, .keep rfl rfl, .load hengine hload rfl⟩
  | loaded hengine hload =>
    have hlocked := @locked_modifyStation_of_held Engine Load studio station
    exact ⟨_, rfl, .keep rfl (hlocked fun _ => rfl), .loaded hengine hload rfl⟩
  | @unlock run index resolution | @abandon run index resolution failure =>
    refine ⟨_, rfl, .give rfl rfl ?_, .work rfl rfl (fun _ => rfl) rfl⟩
    exact locked_modifyStation (g := (·.erase resolution.primary)) (fun _ => rfl) fun _ => rfl
  | draw | fail | deliver | drop | keep | display =>
    exact ⟨_, rfl, .keep rfl rfl, .work rfl rfl (fun _ => rfl) rfl⟩

/-- An engine after a move is as it was, or the task's load has taken a step in it. -/
theorem LoadMove.engine {before after : Stage Load} {index : Nat} {engine : Engine}
    (hmove : LoadMove model studio next before after) (hengine : next.engines[index]? = some engine) :
    ∃ old, studio.engines[index]? = some old ∧
      (engine = old ∨ ∃ run resolution load world progress,
        before = .running run (.loading index resolution load) ∧
          model.advance world old load = (engine, progress) ∧
          ∀ result, progress = .ended result →
            after = .running run (.unlocking index resolution result)) := by
  cases hmove with
  | work _ _ _ hengines | missing _ _ hengines | start hengines =>
    exact ⟨engine, hengines ▸ hengine, Or.inl rfl⟩
  | load hold hload hengines =>
    rw [hengines] at hengine
    rcases getElem?_modify_eq_some hengine with ⟨rfl, -, -, rfl⟩ | ⟨-, hother⟩
    · exact ⟨_, hold, Or.inr ⟨_, _, _, _, _, rfl, hload, nofun⟩⟩
    · exact ⟨engine, hother, Or.inl rfl⟩
  | loaded hold hload hengines =>
    rw [hengines] at hengine
    rcases getElem?_modify_eq_some hengine with ⟨rfl, -, -, rfl⟩ | ⟨-, hother⟩
    · refine ⟨_, hold, Or.inr ⟨_, _, _, _, _, rfl, hload, ?_⟩⟩
      rintro _ ⟨⟩
      rfl
    · exact ⟨engine, hother, Or.inl rfl⟩

/-- What begins no load any more never will. -/
theorem LoadMove.isPastStart {before after : Stage Load} (hmove : LoadMove model studio next before after)
    (hpast : before.isPastStart = true) : after.isPastStart = true := by
  cases hmove with
  | work _ _ hstays => exact hstays hpast
  | missing => cases hpast
  | start | load | loaded => rfl

end Studio

/-! ## The loads of a run -/

/-- A load that begins or ends. -/
structure LoadEvent where
  /-- the task that loads -/
  task : Nat
  /-- the station that runs it -/
  station : Nat
  /-- the engine that loads -/
  engine : Nat
  /-- what is loaded -/
  resolution : Resolution
  /-- what came of it, if it ends -/
  result? : Option (Except LoadFailure Unit)

namespace LoadEvent

/-- A load begins. -/
def Begins (event : LoadEvent) : Prop :=
  event.result? = none

/-- A load ends in success. -/
def Succeeds (event : LoadEvent) : Prop :=
  event.result? = some (.ok ())

/-- Two loads are for one primary grammar, at one station and with one engine. -/
def Alike (event other : LoadEvent) : Prop :=
  event.station = other.station ∧ event.engine = other.engine ∧
    event.resolution.primary = other.resolution.primary

end LoadEvent

/-- The load that begins or ends when a task goes from one stage to another. -/
def Stage.loadEvent? (number station : Nat) : Stage Load → Stage Load → Option LoadEvent
  | .running _ (.starting engine resolution), .running _ (.loading ..) =>
    some ⟨number, station, engine, resolution, none⟩
  | .running _ (.loading ..), .running _ (.unlocking engine resolution result) =>
    some ⟨number, station, engine, resolution, some result⟩
  | _, _ => none

theorem Stage.loadEvent?_of_mustLoad {before after : Stage Load} (h : before.mustLoad = false)
    (number station : Nat) : before.loadEvent? number station after = none := by
  unfold loadEvent?
  split
  · cases h
  · cases h
  · rfl

namespace Studio

/-- The load that began or ended by an action that led from one studio to the next. -/
def loadEvent? (studio next : Studio Engine Load) (action : Action World) : Option LoadEvent := do
  let number ← action.task?
  let before ← studio.tasks[number]?
  let after ← next.tasks[number]?
  before.stage.loadEvent? number before.station after.stage

/-- The loads that begin and end in the course of a run, in order. -/
def loadEvents (model : EngineModel World Engine Load) (studio : Studio Engine Load) :
    List (Action World) → List LoadEvent
  | [] => []
  | action :: rest =>
    match studio.step model action with
    | none => []
    | some next => (studio.loadEvent? next action).toList ++ loadEvents model next rest

variable {model : EngineModel World Engine Load} {start studio next : Studio Engine Load}
  {number station : Nat} {done : List (Action World)} {action : Action World}

/-- The load that a move begins or ends is its task's. -/
theorem LoadMove.event_inv {before after : Stage Load} {station : Nat} {event : LoadEvent}
    (hmove : LoadMove model studio next before after)
    (hevent : before.loadEvent? number station after = some event) :
    event.task = number ∧ event.station = station ∧ after.isPastStart = true ∧
      ∃ run, (event.Begins ∧ before = .running run (.starting event.engine event.resolution)) ∨
        (¬ event.Begins ∧
          ∃ load, before = .running run (.loading event.engine event.resolution load)) := by
  cases hmove with
  | work hbefore =>
    rw [Stage.loadEvent?_of_mustLoad hbefore] at hevent
    cases hevent
  | missing | load => cases hevent
  | @start run =>
    obtain rfl := Option.some.inj hevent
    exact ⟨rfl, rfl, rfl, run, Or.inl ⟨rfl, rfl⟩⟩
  | @loaded run _ _ load =>
    obtain rfl := Option.some.inj hevent
    exact ⟨rfl, rfl, rfl, run, Or.inr ⟨nofun, load, rfl⟩⟩

theorem loadEvents_concat (hrun : start.run model done = some studio)
    (hstep : studio.step model action = some next) :
    loadEvents model start (done ++ [action])
      = loadEvents model start done ++ (studio.loadEvent? next action).toList := by
  refine records_concat (loadEvents model) (fun studio next action =>
    (studio.loadEvent? next action).toList) (fun _ => rfl) ?_ hrun hstep
  intro studio next action rest hnext
  rw [loadEvents, hnext]

/-! ## Turns -/

/-- **A task takes a turn**: it goes from one stage to another, and with it locks and loads. -/
structure Turn (model : EngineModel World Engine Load) (studio next : Studio Engine Load)
    (number station : Nat) (before after : Stage Load) : Prop where
  /-- the task was at the first stage -/
  moved : studio.tasks[number]? = some ⟨station, before⟩
  /-- it is at the second, and no other task has gone anywhere -/
  tasks : next.tasks = (studio.setStage number after).tasks
  /-- what it has done to locks -/
  lock : LockMove studio next station before.lock? after.lock?
  /-- what it has done to loads -/
  load : LoadMove model studio next before after

namespace Turn

variable {before after : Stage Load}

/-- The task is at its new stage. -/
theorem now (h : Turn model studio next number station before after) :
    next.tasks[number]? = some ⟨station, after⟩ := by
  rw [h.tasks, setStage, List.getElem?_modify_eq, h.moved]
  rfl

/-- A task after a turn is the one whose turn it was, or another as it was. -/
theorem task_cases (h : Turn model studio next number station before after) {other : Nat}
    {task : Task Load} (htask : next.tasks[other]? = some task) :
    (other = number ∧ task = ⟨station, after⟩) ∨
      (other ≠ number ∧ studio.tasks[other]? = some task) := by
  rw [h.tasks] at htask
  rcases getElem?_setStage_eq_some htask with ⟨rfl, old, hold, rfl⟩ | hother
  · obtain rfl := Option.some.inj (hold.symm.trans h.moved)
    exact Or.inl ⟨rfl, rfl⟩
  · exact Or.inr hother

/-- The other tasks are where they were. -/
theorem other (h : Turn model studio next number station before after) {other : Nat}
    (hne : number ≠ other) : next.tasks[other]? = studio.tasks[other]? := by
  rw [h.tasks, setStage, List.getElem?_modify_ne _ _ hne]

end Turn

/-- **A step makes a call that has no lock and nothing to load, or a task takes a turn.** -/
theorem turn_of_step (hstep : studio.step model action = some next) :
    (∃ station stage, stage.lock? = none ∧ stage.mustLoad = false ∧
      next = studio.addTask station stage ∧ studio.loadEvent? next action = none) ∨
    ∃ number station before after, Turn model studio next number station before after ∧
      studio.loadEvent? next action = before.loadEvent? number station after := by
  rcases step_inv hstep with ⟨index, call, view, rfl, -, rfl⟩ | ⟨station, request, rfl, -, rfl⟩ |
    ⟨number, ⟨station, before⟩, haction, hmoved, hmove⟩
  · exact Or.inl ⟨_, _, rfl, rfl, rfl, rfl⟩
  · exact Or.inl ⟨_, _, rfl, rfl, rfl, rfl⟩
  · obtain ⟨after, htasks, hlock, hload⟩ := hmove.loadMove
    have hturn : Turn model studio next number station before after := ⟨hmoved, htasks, hlock, hload⟩
    refine Or.inr ⟨number, station, before, after, hturn, ?_⟩
    simp only [loadEvent?, haction, hmoved, hturn.now, Option.bind_eq_bind, Option.bind_some]

end Studio

end CodeMarkup
