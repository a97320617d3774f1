import CodeMarkup.Render.Step

/-!
# Moves

A step of a studio makes a call, asks for a drawing, or **moves** one task. The moves are listed once and
for all (`Move`), each with its guard and with the studio that it leads to, and `step_inv` says that there
are no other steps. Every invariant of a studio is then proved by cases on moves, without unfolding a
step.

What holds of a whole run is proved by `run_induction`, for which the run is extended at its end.
-/

namespace CodeMarkup

variable {World Engine Load : Type}

/-! ## What stages say -/

/-- The drawing that an ending ends. -/
def Ending.run? : Ending → Option Run
  | .unchanged => none
  | .failed run _ | .delivered run _ _ | .applied run _ _ | .stale run _ _ => some run

/-- The drawing that a task is at, or has ended. -/
def Stage.run? : Stage Load → Option Run
  | .running run _ => some run
  | .ended ending => ending.run?
  | _ => none

/-- The engine that a drawing goes by, once it has looked it up. -/
def Phase.engine? : Phase Load → Option (Option Nat)
  | .reading => none
  | .fetching engine _ | .checking engine _ | .queued engine _ | .holding engine _
  | .starting engine _ | .loading engine _ _ | .unlocking engine _ _ | .drawing engine _ =>
    some (some engine)
  | .drawn engine _ => some engine

/-- The task that an action moves, if it moves one. -/
def Action.task? : Action World → Option Nat
  | .answer number _ | .advance number _ => some number
  | .call .. | .render .. => none

namespace Studio

/-! ## The moves of a task -/

/-- The moves of a task with a number at a station, from each stage to the studio that follows. -/
inductive Move (model : EngineModel World Engine Load) (studio : Studio Engine Load)
    (number station : Nat) : Stage Load → Studio Engine Load → Prop where
  /-- a change makes no difference -/
  | same {index : Nat} {change : Change} {view : View} (hview : studio.views[index]? = some view)
      (hsame : (change.apply view.request).same view.request = true) :
    Move model studio number station (.called index (.change change))
      (studio.setStage number (.ended .unchanged))
  /-- a change makes a difference -/
  | change {index : Nat} {change : Change} {view : View} (hview : studio.views[index]? = some view)
      (hdiffers : (change.apply view.request).same view.request = false) :
    Move model studio number station (.called index (.change change))
      (studio.stamp number index view (change.apply view.request))
  /-- an engine is installed already -/
  | sameEngine {index : Nat} {engine : Option Nat} {place : Station}
      (hstation : studio.stations[station]? = some place) (hsame : engine = place.engine) :
    Move model studio number station (.called index (.setEngine engine))
      (studio.setStage number (.ended .unchanged))
  /-- an engine is not the one installed -/
  | otherEngine {index : Nat} {engine : Option Nat} {place : Station}
      (hstation : studio.stations[station]? = some place) (hdiffers : engine ≠ place.engine) :
    Move model studio number station (.called index (.setEngine engine))
      (studio.setStage number (.swapping index engine))
  /-- a drawing is asked for again -/
  | refresh {index : Nat} {view : View} (hview : studio.views[index]? = some view) :
    Move model studio number station (.called index .refresh)
      (studio.stamp number index view view.request)
  /-- an engine is installed -/
  | swap {index : Nat} {engine : Option Nat} :
    Move model studio number station (.swapping index engine)
      ((studio.modifyStation station fun place => { place with engine := engine }).setStage number
        (.stamping index))
  /-- a drawing is asked for after an engine was installed -/
  | restamp {index : Nat} {view : View} (hview : studio.views[index]? = some view) :
    Move model studio number station (.stamping index)
      (studio.stamp number index view view.request)
  /-- the installed engine is looked up -/
  | read {run : Run} {place : Station} (hstation : studio.stations[station]? = some place) :
    Move model studio number station (.running run .reading)
      (studio.setStage number (.running run (firstPhase run.request place.engine)))
  /-- a supplier's answer resolves the language -/
  | resolve {run : Run} {engine : Nat} {language : Language} {answer : Except FetchFault Bundle}
      {resolution : Resolution} (hanswer : language.resolution answer = .ok resolution) :
    Move model studio number station (.running run (.fetching engine language))
      (studio.setStage number (.running run (.checking engine resolution)))
  /-- a supplier's answer does not resolve the language -/
  | unresolved {run : Run} {engine : Nat} {language : Language} {answer : Except FetchFault Bundle}
      {fault : RenderFault} (hanswer : language.resolution answer = .error fault) :
    Move model studio number station (.running run (.fetching engine language))
      (studio.setStage number (.running run (.drawn (some engine) (.error fault))))
  /-- the primary grammar is looked for -/
  | check {run : Run} {index : Nat} {resolution : Resolution} {engine : Engine}
      (hengine : studio.engines[index]? = some engine) :
    Move model studio number station (.running run (.checking index resolution))
      (studio.setStage number (.running run
        (if model.isLoaded engine resolution.primary then .drawing index resolution
          else .queued index resolution)))
  /-- the lock of the primary grammar is taken -/
  | lock {run : Run} {index : Nat} {resolution : Resolution} {place : Station}
      (hstation : studio.stations[station]? = some place) (hfree : resolution.primary ∉ place.held) :
    Move model studio number station (.running run (.queued index resolution))
      ((studio.modifyStation station fun place =>
          { place with held := resolution.primary :: place.held }).setStage number
        (.running run (.holding index resolution)))
  /-- the primary grammar is looked for again -/
  | recheck {run : Run} {index : Nat} {resolution : Resolution} {engine : Engine}
      (hengine : studio.engines[index]? = some engine) :
    Move model studio number station (.running run (.holding index resolution))
      (studio.setStage number (.running run
        (if model.isLoaded engine resolution.primary then .unlocking index resolution (.ok ())
          else .starting index resolution)))
  /-- a load begins -/
  | start {run : Run} {index : Nat} {resolution : Resolution} :
    Move model studio number station (.running run (.starting index resolution))
      ((studio.modifyStation station fun place => { place with loading := place.loading.raise }).setStage
        number (.running run (.loading index resolution (model.ofList resolution.definitions))))
  /-- a load goes on -/
  | load {run : Run} {index : Nat} {resolution : Resolution} {load going : Load} {world : World}
      {engine after : Engine} (hengine : studio.engines[index]? = some engine)
      (hload : model.advance world engine load = (after, .going going)) :
    Move model studio number station (.running run (.loading index resolution load))
      ((studio.modifyEngine index fun _ => after).setStage number
        (.running run (.loading index resolution going)))
  /-- a load ends -/
  | loaded {run : Run} {index : Nat} {resolution : Resolution} {load : Load} {world : World}
      {engine after : Engine} {result : Except LoadFailure Unit}
      (hengine : studio.engines[index]? = some engine)
      (hload : model.advance world engine load = (after, .ended result)) :
    Move model studio number station (.running run (.loading index resolution load))
      (((studio.modifyEngine index fun _ => after).modifyStation station fun place =>
          { place with loading := place.loading.lower }).setStage number
        (.running run (.unlocking index resolution result)))
  /-- the lock is released with the grammars in place -/
  | unlock {run : Run} {index : Nat} {resolution : Resolution} :
    Move model studio number station (.running run (.unlocking index resolution (.ok ())))
      ((studio.modifyStation station fun place =>
          { place with held := place.held.erase resolution.primary }).setStage number
        (.running run (.drawing index resolution)))
  /-- the lock is released after a failure -/
  | abandon {run : Run} {index : Nat} {resolution : Resolution} {failure : LoadFailure} :
    Move model studio number station (.running run (.unlocking index resolution (.error failure)))
      ((studio.modifyStation station fun place =>
          { place with held := place.held.erase resolution.primary }).setStage number
        (.running run (.drawn (some index) (.error (.load failure)))))
  /-- the engine draws -/
  | draw {run : Run} {index : Nat} {resolution : Resolution} {world : World} {engine : Engine}
      (hengine : studio.engines[index]? = some engine) :
    Move model studio number station (.running run (.drawing index resolution))
      (studio.setStage number (.running run
        (.drawn (some index) (model.draw world engine (run.request.query resolution.primary)))))
  /-- a drawing has failed -/
  | fail {run : Run} {engine : Option Nat} {fault : RenderFault} :
    Move model studio number station (.running run (.drawn engine (.error fault)))
      (studio.setStage number (.ended (.failed run fault)))
  /-- a drawing for no view is handed over -/
  | deliver {run : Run} {engine : Option Nat} {markup : String} (hstamp : run.stamp = none) :
    Move model studio number station (.running run (.drawn engine (.ok markup)))
      (studio.setStage number (.ended (.delivered run engine markup)))
  /-- a drawing comes too late -/
  | drop {run : Run} {engine : Option Nat} {markup : String} {stamp : Stamp} {view : View}
      (hstamp : run.stamp = some stamp) (hview : studio.views[stamp.view]? = some view)
      (hlate : view.generation ≠ stamp.generation) :
    Move model studio number station (.running run (.drawn engine (.ok markup)))
      (studio.setStage number (.ended (.stale run engine markup)))
  /-- a drawing is what is shown already -/
  | keep {run : Run} {engine : Option Nat} {markup : String} {stamp : Stamp} {view : View}
      (hstamp : run.stamp = some stamp) (hview : studio.views[stamp.view]? = some view)
      (hnewest : view.generation = stamp.generation) (hshown : view.shown = markup) :
    Move model studio number station (.running run (.drawn engine (.ok markup)))
      (studio.setStage number (.ended (.applied run engine markup)))
  /-- a drawing is shown in place of another -/
  | display {run : Run} {engine : Option Nat} {markup : String} {stamp : Stamp} {view : View}
      (hstamp : run.stamp = some stamp) (hview : studio.views[stamp.view]? = some view)
      (hnewest : view.generation = stamp.generation) (hshown : view.shown ≠ markup) :
    Move model studio number station (.running run (.drawn engine (.ok markup)))
      ((studio.setStage number (.ended (.applied run engine markup))).modifyView stamp.view
        fun view => { view with shown := markup, changes := view.changes + 1 })

variable {model : EngineModel World Engine Load} {studio next : Studio Engine Load}
  {number station index : Nat} {world : World}

/-- The last step of a drawing is a move. -/
theorem move_of_finish {run : Run} {engine : Option Nat} {result : Except RenderFault String}
    (h : studio.finish number run engine result = some next) :
    Move model studio number station (.running run (.drawn engine result)) next := by
  unfold finish at h
  cases result with
  | error fault =>
    obtain rfl := Option.some.inj h
    exact .fail
  | ok markup =>
    rcases hstamp : run.stamp with _ | stamp
    · simp only [hstamp] at h
      obtain rfl := Option.some.inj h
      exact .deliver hstamp
    · simp only [hstamp, Option.bind_eq_bind, Option.bind_eq_some_iff] at h
      obtain ⟨view, hview, h⟩ := h
      split at h
      · rename_i hlate
        obtain rfl := Option.some.inj h
        exact .drop hstamp hview hlate
      · rename_i hnewest
        split at h
        · rename_i hshown
          obtain rfl := Option.some.inj h
          exact .keep hstamp hview (Decidable.not_not.mp hnewest) hshown
        · rename_i hshown
          obtain rfl := Option.some.inj h
          exact .display hstamp hview (Decidable.not_not.mp hnewest) hshown

/-- A step of a drawing is a move. -/
theorem move_of_draw {place : Station} {run : Run} {phase : Phase Load}
    (hstation : studio.stations[station]? = some place)
    (h : studio.draw model world number station place run phase = some next) :
    Move model studio number station (.running run phase) next := by
  cases phase with
  | reading =>
    obtain rfl := Option.some.inj h
    exact .read hstation
  | fetching engine language => cases h
  | checking index resolution =>
    simp only [draw, Option.bind_eq_bind, Option.bind_eq_some_iff] at h
    obtain ⟨engine, hengine, h⟩ := h
    obtain rfl := Option.some.inj h
    exact .check hengine
  | queued index resolution =>
    simp only [draw] at h
    split at h
    · cases h
    · rename_i hfree
      obtain rfl := Option.some.inj h
      exact .lock hstation hfree
  | holding index resolution =>
    simp only [draw, Option.bind_eq_bind, Option.bind_eq_some_iff] at h
    obtain ⟨engine, hengine, h⟩ := h
    obtain rfl := Option.some.inj h
    exact .recheck hengine
  | starting index resolution =>
    obtain rfl := Option.some.inj h
    exact .start
  | loading index resolution load =>
    simp only [draw, Option.bind_eq_bind, Option.bind_eq_some_iff] at h
    obtain ⟨engine, hengine, h⟩ := h
    rcases hload : model.advance world engine load with ⟨after, going | result⟩
    · simp only [hload] at h
      obtain rfl := Option.some.inj h
      exact .load hengine hload
    · simp only [hload] at h
      obtain rfl := Option.some.inj h
      exact .loaded hengine hload
  | unlocking index resolution result =>
    cases result with
    | ok done =>
      obtain rfl := Option.some.inj h
      exact .unlock
    | error failure =>
      obtain rfl := Option.some.inj h
      exact .abandon
  | drawing index resolution =>
    simp only [draw, Option.bind_eq_bind, Option.bind_eq_some_iff] at h
    obtain ⟨engine, hengine, h⟩ := h
    obtain rfl := Option.some.inj h
    exact .draw hengine
  | drawn engine result => exact move_of_finish h

/-- The first step of a call is a move. -/
theorem move_of_receive {place : Station} {view : View} {call : ViewCall}
    (hstation : studio.stations[station]? = some place) (hview : studio.views[index]? = some view)
    (h : studio.receive number index view place call = next) :
    Move model studio number station (.called index call) next := by
  subst h
  cases call with
  | change change =>
    simp only [receive]
    split
    · rename_i hsame
      exact .same hview hsame
    · rename_i hdiffers
      exact .change hview (Bool.not_eq_true _ ▸ hdiffers)
  | setEngine engine =>
    simp only [receive]
    split
    · rename_i hsame
      exact .sameEngine hstation hsame
    · rename_i hdiffers
      exact .otherEngine hstation hdiffers
  | refresh => exact .refresh hview

/-- What a task does when it advances is a move. -/
theorem move_of_advance (h : studio.advance model world number = some next) :
    ∃ task, studio.tasks[number]? = some task ∧
      Move model studio number task.station task.stage next := by
  simp only [advance, Option.bind_eq_bind, Option.bind_eq_some_iff] at h
  obtain ⟨task, htask, place, hstation, h⟩ := h
  refine ⟨task, htask, ?_⟩
  rcases hstage : task.stage with ⟨index, call⟩ | ⟨index, engine⟩ | ⟨index⟩ | ⟨run, phase⟩ | ending
  · simp only [hstage, Option.bind_eq_some_iff] at h
    obtain ⟨view, hview, h⟩ := h
    exact move_of_receive hstation hview (Option.some.inj h)
  · simp only [hstage] at h
    obtain rfl := Option.some.inj h
    exact .swap
  · simp only [hstage, Option.bind_eq_some_iff] at h
    obtain ⟨view, hview, h⟩ := h
    obtain rfl := Option.some.inj h
    exact .restamp hview
  · simp only [hstage] at h
    exact move_of_draw hstation h
  · simp only [hstage] at h
    cases h

/-- What a task does when it is answered is a move. -/
theorem move_of_answer (model : EngineModel World Engine Load) {answer : Except FetchFault Bundle}
    (h : studio.answer number answer = some next) :
    ∃ task, studio.tasks[number]? = some task ∧
      Move model studio number task.station task.stage next := by
  simp only [Studio.answer, Option.bind_eq_bind, Option.bind_eq_some_iff] at h
  obtain ⟨task, htask, h⟩ := h
  refine ⟨task, htask, ?_⟩
  split at h
  · rename_i run engine language hstage
    obtain rfl := Option.some.inj h
    rw [hstage]
    rcases hanswer : language.resolution answer with fault | resolution
    · exact .unresolved hanswer
    · exact .resolve hanswer
  · cases h

/-- **Every step is a call, a request for a drawing or a move.** -/
theorem step_inv {action : Action World} (h : studio.step model action = some next) :
    (∃ index call view, action = .call index call ∧ studio.views[index]? = some view ∧
      next = studio.addTask view.station (.called index call)) ∨
    (∃ station request, action = .render station request ∧ station < studio.stations.length ∧
      next = studio.addTask station (.running ⟨request, none⟩ .reading)) ∨
    (∃ number task, action.task? = some number ∧ studio.tasks[number]? = some task ∧
      Move model studio number task.station task.stage next) := by
  cases action with
  | call index call =>
    simp only [step, Option.bind_eq_bind, Option.bind_eq_some_iff] at h
    obtain ⟨view, hview, h⟩ := h
    exact Or.inl ⟨index, call, view, rfl, hview, (Option.some.inj h).symm⟩
  | render station request =>
    have hguard : (if station < studio.stations.length then some () else none).bind
        (fun _ => some (studio.addTask station (.running ⟨request, none⟩ .reading))) = some next := h
    by_cases hstation : station < studio.stations.length
    · rw [if_pos hstation, Option.bind_some] at hguard
      exact Or.inr (Or.inl ⟨station, request, rfl, hstation, (Option.some.inj hguard).symm⟩)
    · rw [if_neg hstation, Option.bind_none] at hguard
      cases hguard
  | answer number answer =>
    obtain ⟨task, htask, hmove⟩ := move_of_answer model h
    exact Or.inr (Or.inr ⟨number, task, rfl, htask, hmove⟩)
  | advance number world =>
    obtain ⟨task, htask, hmove⟩ := move_of_advance h
    exact Or.inr (Or.inr ⟨number, task, rfl, htask, hmove⟩)

/-! ## What a change leaves alone -/

/-- An item of a list after a change of one: that one, changed, or another as it was. -/
theorem getElem?_modify_eq_some {α : Type} {items : List α} {place other : Nat} {f : α → α} {item : α}
    (h : (items.modify place f)[other]? = some item) :
    (other = place ∧ ∃ before, items[place]? = some before ∧ item = f before) ∨
      (other ≠ place ∧ items[other]? = some item) := by
  by_cases hother : other = place
  · subst hother
    rw [List.getElem?_modify_eq] at h
    obtain ⟨before, hbefore, rfl⟩ := Option.map_eq_some_iff.mp h
    exact Or.inl ⟨rfl, before, hbefore, rfl⟩
  · rw [List.getElem?_modify_ne f items (Ne.symm hother)] at h
    exact Or.inr ⟨hother, h⟩

/-- A task after a task has gone to another stage: that one, or another as it was. -/
theorem getElem?_setStage_eq_some {stage : Stage Load} {other : Nat} {task : Task Load}
    (h : (studio.setStage number stage).tasks[other]? = some task) :
    (other = number ∧ ∃ before, studio.tasks[number]? = some before ∧
      task = { before with stage := stage }) ∨
      (other ≠ number ∧ studio.tasks[other]? = some task) :=
  getElem?_modify_eq_some h

/-- A task after a call was made: that call, or another as it was. -/
theorem getElem?_addTask_eq_some {stage : Stage Load} {other : Nat} {task : Task Load}
    (h : (studio.addTask station stage).tasks[other]? = some task) :
    (other = studio.tasks.length ∧ task = ⟨station, stage⟩) ∨
      (other < studio.tasks.length ∧ studio.tasks[other]? = some task) := by
  rcases Nat.lt_or_ge other studio.tasks.length with hlt | hge
  · rw [addTask, List.getElem?_append_left hlt] at h
    exact Or.inr ⟨hlt, h⟩
  · rw [addTask, List.getElem?_append_right hge, List.getElem?_singleton] at h
    split at h
    · rename_i hlast
      exact Or.inl ⟨by omega, (Option.some.inj h).symm⟩
    · cases h

/-- A task is where it was after a call was made. -/
theorem getElem?_addTask_of_some {stage : Stage Load} {task : Task Load}
    (htask : studio.tasks[number]? = some task) :
    (studio.addTask station stage).tasks[number]? = some task :=
  (List.getElem?_append_left (List.getElem?_eq_some_iff.mp htask).1).trans htask

/-- A task that has gone to another stage is there. -/
theorem getElem?_setStage_self {after : Stage Load} {task : Task Load}
    (htasks : next.tasks = (studio.setStage number after).tasks)
    (htask : studio.tasks[number]? = some task) :
    next.tasks[number]? = some { task with stage := after } := by
  rw [htasks, setStage, List.getElem?_modify_eq, htask]
  rfl

theorem eq_of_getElem?_setStage {after : Stage Load} {task later : Task Load}
    (htasks : next.tasks = (studio.setStage number after).tasks)
    (htask : studio.tasks[number]? = some task) (hlater : next.tasks[number]? = some later) :
    later = { task with stage := after } :=
  Option.some.inj (hlater.symm.trans (getElem?_setStage_self htasks htask))

/-- The other tasks are where they were. -/
theorem getElem?_setStage_ne {after : Stage Load} {other : Nat}
    (htasks : next.tasks = (studio.setStage number after).tasks) (hother : number ≠ other) :
    next.tasks[other]? = studio.tasks[other]? := by
  rw [htasks, setStage, List.getElem?_modify_ne _ _ hother]

/-! ## Runs -/

theorem run_append (studio : Studio Engine Load) (first second : List (Action World)) :
    studio.run model (first ++ second) = (studio.run model first).bind (·.run model second) := by
  induction first generalizing studio with
  | nil => rfl
  | cons action rest ih =>
    rw [List.cons_append, run, run]
    rcases studio.step model action with _ | next
    · rfl
    · exact ih next

theorem run_concat {done : List (Action World)} {action : Action World} {start : Studio Engine Load}
    (hrun : start.run model done = some studio) :
    start.run model (done ++ [action]) = studio.step model action := by
  rw [run_append, hrun, Option.bind_some, run]
  rcases studio.step model action with _ | next <;> rfl

/-- A record that is kept of a run, step by step, is extended at its end when the run is. -/
theorem records_concat {Item : Type} {done : List (Action World)} {action : Action World}
    {start : Studio Engine Load} (records : Studio Engine Load → List (Action World) → List Item)
    (record : Studio Engine Load → Studio Engine Load → Action World → List Item)
    (hnil : ∀ studio, records studio [] = [])
    (hcons : ∀ studio next action rest, studio.step model action = some next →
      records studio (action :: rest) = record studio next action ++ records next rest)
    (hrun : start.run model done = some studio) (hstep : studio.step model action = some next) :
    records start (done ++ [action]) = records start done ++ record studio next action := by
  induction done generalizing start with
  | nil =>
    obtain rfl := Option.some.inj hrun
    rw [List.nil_append, hcons _ _ _ _ hstep, hnil, hnil, List.append_nil, List.nil_append]
  | cons first rest ih =>
    rw [run, Option.bind_eq_bind, Option.bind_eq_some_iff] at hrun
    obtain ⟨second, hsecond, hrun⟩ := hrun
    rw [List.cons_append, hcons _ _ _ _ hsecond, hcons _ _ _ _ hsecond, ih hrun, List.append_assoc]

/-- What holds at the start and is preserved by every step, holds after every run; it may speak of the
actions that have happened. -/
theorem run_induction {start : Studio Engine Load}
    {motive : List (Action World) → Studio Engine Load → Prop} (hstart : motive [] start)
    (hstep : ∀ done studio action next, start.run model done = some studio → motive done studio →
      studio.step model action = some next → motive (done ++ [action]) next)
    {actions : List (Action World)} {final : Studio Engine Load}
    (hrun : start.run model actions = some final) : motive actions final := by
  suffices ∀ rest done studio, start.run model done = some studio → motive done studio →
      studio.run model rest = some final → motive (done ++ rest) final from
    this actions [] start rfl hstart hrun
  intro rest
  induction rest with
  | nil =>
    intro done studio hdone hmotive hrest
    obtain rfl := Option.some.inj hrest
    rw [List.append_nil]
    exact hmotive
  | cons action rest ih =>
    intro done studio hdone hmotive hrest
    rw [run, Option.bind_eq_bind, Option.bind_eq_some_iff] at hrest
    obtain ⟨next, hnext, hrest⟩ := hrest
    have hmore := ih (done ++ [action]) next ((run_concat hdone).trans hnext)
      (hstep done studio action next hdone hmotive hnext) hrest
    rwa [List.append_assoc, List.singleton_append] at hmore

end Studio

end CodeMarkup
