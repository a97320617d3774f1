import CodeMarkup.Proofs.Studio.Engine
import CodeMarkup.Proofs.Studio.LoadMove
import CodeMarkup.Proofs.Studio.Rendering

/-!
# Concurrent misses load once

Many drawings may find a primary grammar missing at the same time. One of them takes the lock of its name,
the others wait, and by the time they have it the grammar is there. So at one station no two loads for one
primary grammar overlap, a drawing begins at most one load, and once a load has succeeded no other is begun
for its primary grammar with the same engine (`concurrent_misses_load_once`). After a load that failed the
next in line tries again. All this asks no more of engines than that they are `Reliable`.

A lock is one task's (`Exclusive`). What a load that succeeded has left loaded stays loaded (`Stocked`), so a
task that finds its primary grammar missing comes after no such load; and until it begins its own it has the
lock, so no other can end in between (`Single`).
-/

namespace CodeMarkup

variable {World Engine Load : Type}

/-! ## Resolutions -/

/-- What the language of a drawing has resolved to, until the drawing is done. -/
def Phase.resolution? : Phase Load → Option Resolution
  | .checking _ resolution | .queued _ resolution | .holding _ resolution | .starting _ resolution
  | .loading _ resolution _ | .unlocking _ resolution _ | .drawing _ resolution => some resolution
  | _ => none

/-- What the language of a call's drawing has resolved to, until the drawing is done. -/
def Stage.resolution? : Stage Load → Option Resolution
  | .running _ phase => phase.resolution?
  | _ => none

namespace Studio

variable {model : EngineModel World Engine Load} {start studio next : Studio Engine Load}
  {actions : List (Action World)} {action : Action World} {number : Nat} {resolution : Resolution}

/-- The primary grammar of each drawing is on its list. -/
def Listed (studio : Studio Engine Load) : Prop :=
  ∀ (number : Nat) (task : Task Load) (resolution : Resolution), studio.tasks[number]? = some task →
    task.stage.resolution? = some resolution →
    resolution.primary ∈ declaredNames resolution.definitions

theorem listed_run (hstart : start.tasks = []) (hrun : start.run model actions = some studio) :
    studio.Listed := by
  intro number task resolution htask hresolution
  have hsound := stage_sound hstart hrun htask
  rcases hstage : task.stage with ⟨_, _⟩ | ⟨_, _⟩ | _ | ⟨run, phase⟩ | _
  case running =>
    rw [hstage] at hsound hresolution
    have hresolves : ResolvesTo run.request resolution := by
      cases phase with
      | reading | fetching | drawn => cases hresolution
      | _ =>
        obtain rfl := Option.some.inj hresolution
        exact hsound
    obtain ⟨language, answer, -, hanswer⟩ := hresolves
    exact Language.primary_mem_declaredNames hanswer
  all_goals
    rw [hstage] at hresolution
    cases hresolution

/-! ## One task for each lock -/

/-- **A lock is one task's.** -/
structure Exclusive (studio : Studio Engine Load) : Prop where
  /-- a lock that a task has is held at its station -/
  held {number : Nat} {task : Task Load} {name : String} : studio.tasks[number]? = some task →
    task.stage.lock? = some name → name ∈ studio.locked task.station
  /-- no other task there has it -/
  one {number other : Nat} {task twin : Task Load} {name : String} : studio.tasks[number]? = some task →
    studio.tasks[other]? = some twin → task.station = twin.station → task.stage.lock? = some name →
    twin.stage.lock? = some name → number = other

/-- A call that is made has no lock. -/
theorem Exclusive.addTask (h : studio.Exclusive) {station : Nat} {stage : Stage Load}
    (hnone : stage.lock? = none) : (studio.addTask station stage).Exclusive := by
  have hold : ∀ {number : Nat} {task : Task Load} {name : String},
      (studio.addTask station stage).tasks[number]? = some task → task.stage.lock? = some name →
      studio.tasks[number]? = some task := by
    intro number task name htask hname
    rcases getElem?_addTask_eq_some htask with ⟨-, rfl⟩ | ⟨-, hold⟩
    · rw [hnone] at hname
      cases hname
    · exact hold
  exact ⟨fun htask hname => h.held (hold htask hname) hname, fun htask htwin hstation hname hother =>
    h.one (hold htask hname) (hold htwin hother) hstation hname hother⟩

section Turns

variable {station : Nat} {before after : Stage Load}

/-- The lock that a task has after its turn no other task there had. -/
theorem Exclusive.lock?_ne (h : studio.Exclusive)
    (hturn : Turn model studio next number station before after) {other : Nat} {twin : Task Load}
    {name : String} (hne : other ≠ number) (htwin : studio.tasks[other]? = some twin)
    (hstation : twin.station = station) (hafter : after.lock? = some name) :
    twin.stage.lock? ≠ some name := by
  intro hother
  cases hturn.lock with
  | keep hsame => exact hne (h.one htwin hturn.moved hstation hother (hsame ▸ hafter))
  | take _ htaken hfree =>
    obtain rfl := Option.some.inj (hafter.symm.trans htaken)
    exact hfree (hstation ▸ h.held htwin hother)
  | give _ hnone =>
    rw [hnone] at hafter
    cases hafter

/-- The lock that a task has after its turn is held. -/
theorem Exclusive.held_mine (h : studio.Exclusive)
    (hturn : Turn model studio next number station before after) {name : String}
    (hname : after.lock? = some name) : name ∈ next.locked station := by
  cases hturn.lock with
  | keep hsame hlocked =>
    rw [hlocked]
    exact h.held hturn.moved (hsame ▸ hname)
  | take _ htaken _ hlocked =>
    obtain rfl := Option.some.inj (hname.symm.trans htaken)
    rw [hlocked, if_pos rfl]
    exact List.mem_cons_self
  | give _ hnone =>
    rw [hnone] at hname
    cases hname

/-- The lock that another task has is still held. -/
theorem Exclusive.held_other (h : studio.Exclusive)
    (hturn : Turn model studio next number station before after) {other : Nat} {task : Task Load}
    {name : String} (hne : other ≠ number) (htask : studio.tasks[other]? = some task)
    (hname : task.stage.lock? = some name) : name ∈ next.locked task.station := by
  have hheld := h.held htask hname
  cases hturn.lock with
  | keep _ hlocked => exact hlocked ▸ hheld
  | take _ _ _ hlocked =>
    rw [hlocked]
    split
    · rename_i hstation
      exact List.mem_cons_of_mem _ (hstation ▸ hheld)
    · exact hheld
  | give hbefore _ hlocked =>
    rw [hlocked]
    split
    · rename_i hstation
      -- the lock given back is another one
      refine (List.mem_erase_of_ne ?_).mpr (hstation ▸ hheld)
      rintro rfl
      exact hne (h.one htask hturn.moved hstation hname hbefore)
    · exact hheld

/-- A turn leaves every lock to one task. -/
theorem Exclusive.turn (h : studio.Exclusive)
    (hturn : Turn model studio next number station before after) : next.Exclusive := by
  constructor
  case held =>
    intro other task name htask hname
    rcases hturn.task_cases htask with ⟨rfl, rfl⟩ | ⟨hne, hold⟩
    · exact h.held_mine hturn hname
    · exact h.held_other hturn hne hold hname
  case one =>
    intro one other task twin name htask htwin hstation hname hother
    rcases hturn.task_cases htask with ⟨rfl, rfl⟩ | ⟨hne, hold⟩ <;>
      rcases hturn.task_cases htwin with ⟨rfl, rfl⟩ | ⟨hdiffers, holder⟩
    · rfl
    · exact absurd hother (h.lock?_ne hturn hdiffers holder hstation.symm hname)
    · exact absurd hname (h.lock?_ne hturn hne hold hstation hother)
    · exact h.one hold holder hstation hname hother

end Turns

/-- **A step leaves every lock to one task.** -/
theorem Exclusive.step (h : studio.Exclusive) (hstep : studio.step model action = some next) :
    next.Exclusive := by
  rcases turn_of_step hstep with ⟨_, _, hnone, -, rfl, -⟩ | ⟨_, _, _, _, hturn, -⟩
  · exact h.addTask hnone
  · exact h.turn hturn

/-! ## What loads leave behind -/

/-- **What is known of engines**, given the loads that have begun and ended. -/
structure Stocked (model : EngineModel World Engine Load) (studio : Studio Engine Load)
    (events : List LoadEvent) : Prop where
  /-- loads that go on are under way -/
  underway {number index : Nat} {task : Task Load} {run : Run} {resolution : Resolution} {load : Load}
      {engine : Engine} : studio.tasks[number]? = some task →
    task.stage = .running run (.loading index resolution load) → studio.engines[index]? = some engine →
    model.Underway resolution.definitions engine load
  /-- what a load that succeeded has left loaded is loaded -/
  loaded {event : LoadEvent} {engine : Engine} {name : String} : event ∈ events → event.Succeeds →
    studio.engines[event.engine]? = some engine →
    name ∈ declaredNames event.resolution.definitions → model.isLoaded engine name = true
  /-- the primary grammar of a load is on its list -/
  listed {event : LoadEvent} : event ∈ events →
    event.resolution.primary ∈ declaredNames event.resolution.definitions

/-- A name that is loaded stays loaded. -/
theorem LoadMove.isLoaded {before after : Stage Load} {index : Nat} {engine : Engine} {name : String}
    (hmove : LoadMove model studio next before after) (hmodel : model.Reliable)
    (hengine : next.engines[index]? = some engine)
    (hloaded : ∀ old, studio.engines[index]? = some old → model.isLoaded old name = true) :
    model.isLoaded engine name = true := by
  obtain ⟨old, hfound, rfl | ⟨_, _, _, _, _, -, hload, -⟩⟩ := hmove.engine hengine
  · exact hloaded engine hfound
  · exact hmodel.keeps hload (hloaded old hfound)

section Turns

variable {events : List LoadEvent} {station : Nat} {before after : Stage Load}

/-- A load that goes on after a turn is under way. -/
theorem Stocked.underway_turn (h : studio.Stocked model events)
    (hturn : Turn model studio next number station before after) {other index : Nat} {task : Task Load}
    {run : Run} {load : Load} {engine : Engine} (htask : next.tasks[other]? = some task)
    (hstage : task.stage = .running run (.loading index resolution load))
    (hengine : next.engines[index]? = some engine) :
    model.Underway resolution.definitions engine load := by
  rcases hturn.task_cases htask with ⟨rfl, rfl⟩ | ⟨-, hold⟩
  · obtain rfl : after = _ := hstage
    cases hturn.load with
    | work _ hafter => cases hafter
    | start => exact .start
    | load hfound hload hengines =>
      rw [hengines, modifyEngine, List.getElem?_modify_eq, hfound] at hengine
      obtain rfl := Option.some.inj hengine
      exact .going (h.underway hturn.moved rfl hfound) hload
  · obtain ⟨old, hfound, hsame | ⟨_, _, _, _, _, -, hload, -⟩⟩ := hturn.load.engine hengine
    · exact hsame ▸ h.underway hold hstage hfound
    · exact .meanwhile (h.underway hold hstage hfound) hload

/-- What a load leaves loaded when it ends in success. -/
theorem Stocked.loaded_now (h : studio.Stocked model events) (hmodel : model.Reliable)
    (hturn : Turn model studio next number station before after) {event : LoadEvent} {engine : Engine}
    {name : String} (hevent : before.loadEvent? number station after = some event)
    (hsucceeds : event.Succeeds) (hengine : next.engines[event.engine]? = some engine)
    (hname : name ∈ declaredNames event.resolution.definitions) : model.isLoaded engine name = true := by
  cases hturn.load with
  | work hbefore =>
    rw [Stage.loadEvent?_of_mustLoad hbefore] at hevent
    cases hevent
  | missing | load => cases hevent
  | start =>
    obtain rfl := Option.some.inj hevent
    cases hsucceeds
  | loaded hfound hload hengines =>
    obtain rfl := Option.some.inj hevent
    obtain rfl := Option.some.inj hsucceeds
    rw [hengines, modifyEngine, List.getElem?_modify_eq, hfound] at hengine
    obtain rfl := Option.some.inj hengine
    exact hmodel.loads (h.underway hturn.moved rfl hfound) hload hname

/-- A turn keeps what is known of engines. -/
theorem Stocked.turn (h : studio.Stocked model events) (hmodel : model.Reliable)
    (hlisted : studio.Listed) (hturn : Turn model studio next number station before after) :
    next.Stocked model (events ++ (before.loadEvent? number station after).toList) := by
  constructor
  case underway => exact h.underway_turn hturn
  case loaded =>
    intro event engine name hmem hsucceeds hengine hname
    rcases List.mem_append.mp hmem with hold | hnew
    · exact hturn.load.isLoaded hmodel hengine fun old hfound => h.loaded hold hsucceeds hfound hname
    · exact h.loaded_now hmodel hturn (Option.mem_toList.mp hnew) hsucceeds hengine hname
  case listed =>
    intro event hmem
    rcases List.mem_append.mp hmem with hold | hnew
    · exact h.listed hold
    · obtain ⟨-, -, -, run, ⟨-, rfl⟩ | ⟨-, load, rfl⟩⟩ :=
        hturn.load.event_inv (Option.mem_toList.mp hnew)
      · exact hlisted number _ _ hturn.moved rfl
      · exact hlisted number _ _ hturn.moved rfl

end Turns

/-- **A step keeps what is known of engines.** -/
theorem Stocked.step {events : List LoadEvent} (h : studio.Stocked model events)
    (hmodel : model.Reliable) (hlisted : studio.Listed)
    (hstep : studio.step model action = some next) :
    next.Stocked model (events ++ (studio.loadEvent? next action).toList) := by
  rcases turn_of_step hstep with ⟨station, stage, -, hidle, rfl, hevent⟩ | ⟨_, _, _, _, hturn, hevent⟩
  · rw [hevent, Option.toList_none, List.append_nil]
    refine ⟨?_, h.loaded, h.listed⟩
    intro other index task run resolution load engine htask hstage hengine
    rcases getElem?_addTask_eq_some htask with ⟨-, rfl⟩ | ⟨-, hold⟩
    · obtain rfl : stage = _ := hstage
      cases hidle
    · exact h.underway hold hstage hengine
  · rw [hevent]
    exact h.turn hmodel hlisted hturn

/-! ## One load for each miss -/

/-- **What is known of the loads that have begun and ended.** -/
structure Single (studio : Studio Engine Load) (events : List LoadEvent) : Prop where
  /-- what a task has found missing no other has loaded since -/
  missing {number index : Nat} {task : Task Load} {run : Run} {resolution : Resolution}
      {event : LoadEvent} : studio.tasks[number]? = some task →
    task.stage = .running run (.starting index resolution) → event ∈ events → event.Succeeds →
    event.station = task.station → event.engine = index →
    event.resolution.primary ≠ resolution.primary
  /-- a task that has begun a load begins no other -/
  past {event : LoadEvent} : event ∈ events → event.Begins →
    ∃ task, studio.tasks[event.task]? = some task ∧ task.stage.isPastStart = true
  /-- no task has begun two loads -/
  once : events.Pairwise fun earlier later =>
    earlier.Begins → later.Begins → earlier.task ≠ later.task
  /-- no load has begun after one like it had succeeded -/
  needed : events.Pairwise fun earlier later =>
    earlier.Succeeds → later.Begins → ¬ later.Alike earlier

section Turns

variable {events : List LoadEvent} {station : Nat} {before after : Stage Load}

/-- The load that begins in a turn is of a task that has found its primary grammar missing. -/
theorem Turn.starting (hturn : Turn model studio next number station before after) {event : LoadEvent}
    (hevent : event ∈ (before.loadEvent? number station after).toList) (hbegins : event.Begins) :
    event.task = number ∧ event.station = station ∧
      ∃ run, before = .running run (.starting event.engine event.resolution) := by
  obtain ⟨htask, hstation, -, run, ⟨-, hbefore⟩ | ⟨hends, -⟩⟩ :=
    hturn.load.event_inv (Option.mem_toList.mp hevent)
  · exact ⟨htask, hstation, run, hbefore⟩
  · exact absurd hbegins hends

/-- What a task has found missing no other has loaded by the end of a turn. -/
theorem Single.missing_turn (h : studio.Single events) (hexclusive : studio.Exclusive)
    (hstocked : studio.Stocked model events)
    (hturn : Turn model studio next number station before after) {other index : Nat} {task : Task Load}
    {run : Run} {event : LoadEvent} (htask : next.tasks[other]? = some task)
    (hstage : task.stage = .running run (.starting index resolution))
    (hmem : event ∈ events ++ (before.loadEvent? number station after).toList)
    (hsucceeds : event.Succeeds) (hstation : event.station = task.station)
    (hengine : event.engine = index) : event.resolution.primary ≠ resolution.primary := by
  intro hprimary
  rcases hturn.task_cases htask with ⟨rfl, rfl⟩ | ⟨hne, hold⟩
  · obtain rfl : after = _ := hstage
    cases hturn.load with
    | work _ hafter => cases hafter
    | missing hfound hmissing =>
      rcases List.mem_append.mp hmem with hearlier | hnew
      · have hloaded := hstocked.loaded hearlier hsucceeds (hengine ▸ hfound)
          (hprimary ▸ hstocked.listed hearlier)
        rw [hmissing] at hloaded
        cases hloaded
      · cases hnew
  · rcases List.mem_append.mp hmem with hearlier | hnew
    · exact h.missing hold hstage hearlier hsucceeds hstation hengine hprimary
    · -- the load that ends has the lock, and so has this task
      obtain ⟨-, hplace, -, run, ⟨hbegins, -⟩ | ⟨-, load, rfl⟩⟩ :=
        hturn.load.event_inv (Option.mem_toList.mp hnew)
      · rw [LoadEvent.Begins, hsucceeds] at hbegins
        cases hbegins
      · refine hne (hexclusive.one hold hturn.moved (hstation.symm.trans hplace) ?_ rfl)
        rw [hstage]
        exact congrArg some hprimary.symm

/-- A task that has begun a load by the end of a turn begins no other. -/
theorem Single.past_turn (h : studio.Single events)
    (hturn : Turn model studio next number station before after) {event : LoadEvent}
    (hmem : event ∈ events ++ (before.loadEvent? number station after).toList)
    (hbegins : event.Begins) :
    ∃ task, next.tasks[event.task]? = some task ∧ task.stage.isPastStart = true := by
  rcases List.mem_append.mp hmem with hold | hnew
  · obtain ⟨task, htask, hpast⟩ := h.past hold hbegins
    by_cases hmine : number = event.task
    · obtain rfl := Option.some.inj (hturn.moved.symm.trans (hmine ▸ htask))
      exact ⟨_, hmine ▸ hturn.now, hturn.load.isPastStart hpast⟩
    · exact ⟨task, (hturn.other hmine).trans htask, hpast⟩
  · obtain ⟨rfl, -, hpast, -⟩ := hturn.load.event_inv (Option.mem_toList.mp hnew)
    exact ⟨_, hturn.now, hpast⟩

/-- A turn begins no load that is not needed. -/
theorem Single.turn (h : studio.Single events) (hexclusive : studio.Exclusive)
    (hstocked : studio.Stocked model events)
    (hturn : Turn model studio next number station before after) :
    next.Single (events ++ (before.loadEvent? number station after).toList) := by
  have hpairwise : ∀ {p : LoadEvent → LoadEvent → Prop}, events.Pairwise p →
      (∀ earlier ∈ events, ∀ later ∈ (before.loadEvent? number station after).toList,
        p earlier later) →
      (events ++ (before.loadEvent? number station after).toList).Pairwise p := by
    intro p hold hnew
    refine List.pairwise_append.mpr ⟨hold, ?_, hnew⟩
    rcases before.loadEvent? number station after with _ | event
    · exact .nil
    · exact List.pairwise_singleton ..
  constructor
  case missing => exact h.missing_turn hexclusive hstocked hturn
  case past => exact h.past_turn hturn
  case once =>
    refine hpairwise h.once fun earlier hearlier later hlater hbegun hbegins htask => ?_
    obtain ⟨hnumber, -, run, rfl⟩ := hturn.starting hlater hbegins
    obtain ⟨mine, hmine, hpast⟩ := h.past hearlier hbegun
    rw [htask, hnumber, hturn.moved] at hmine
    obtain rfl := Option.some.inj hmine
    cases hpast
  case needed =>
    refine hpairwise h.needed ?_
    rintro earlier hearlier later hlater hsucceeds hbegins ⟨hstation, hengine, hprimary⟩
    obtain ⟨-, hplace, run, rfl⟩ := hturn.starting hlater hbegins
    exact h.missing hturn.moved rfl hearlier hsucceeds (hstation.symm.trans hplace) hengine.symm
      hprimary.symm

end Turns

/-- **A step begins no load that is not needed.** -/
theorem Single.step {events : List LoadEvent} (h : studio.Single events) (hexclusive : studio.Exclusive)
    (hstocked : studio.Stocked model events) (hstep : studio.step model action = some next) :
    next.Single (events ++ (studio.loadEvent? next action).toList) := by
  rcases turn_of_step hstep with ⟨station, stage, -, hidle, rfl, hevent⟩ | ⟨_, _, _, _, hturn, hevent⟩
  · rw [hevent, Option.toList_none, List.append_nil]
    refine ⟨?_, ?_, h.once, h.needed⟩
    · intro other index task run resolution event htask hstage
      rcases getElem?_addTask_eq_some htask with ⟨-, rfl⟩ | ⟨-, hold⟩
      · obtain rfl : stage = _ := hstage
        cases hidle
      · exact h.missing hold hstage
    · intro event hmem hbegins
      obtain ⟨task, htask, hpast⟩ := h.past hmem hbegins
      have hlt := (List.getElem?_eq_some_iff.mp htask).1
      exact ⟨task, (List.getElem?_append_left hlt).trans htask, hpast⟩
  · rw [hevent]
    exact h.turn hexclusive hstocked hturn

/-! ## Runs -/

/-- **What is known of locks, engines and loads after a run.** -/
theorem loads_run (hmodel : model.Reliable) (hstart : start.tasks = [])
    (hrun : start.run model actions = some studio) :
    studio.Exclusive ∧ studio.Stocked model (loadEvents model start actions) ∧
      studio.Single (loadEvents model start actions) := by
  refine @run_induction _ _ _ model start (fun actions studio => studio.Exclusive ∧
    studio.Stocked model (loadEvents model start actions) ∧
      studio.Single (loadEvents model start actions)) ?_ ?_ actions studio hrun
  · have hnone : ∀ {number : Nat} {task : Task Load} {p : Prop},
        start.tasks[number]? = some task → p := by
      intro number task p htask
      rw [hstart, List.getElem?_nil] at htask
      cases htask
    have hempty : ∀ {event : LoadEvent} {p : Prop}, event ∈ ([] : List LoadEvent) → p :=
      fun hmem => absurd hmem List.not_mem_nil
    exact ⟨⟨hnone, hnone⟩, ⟨hnone, hempty, hempty⟩, ⟨hnone, hempty, .nil, .nil⟩⟩
  · intro done studio action next hrun ⟨hexclusive, hstocked, hsingle⟩ hstep
    rw [loadEvents_concat hrun hstep]
    exact ⟨hexclusive.step hstep, hstocked.step hmodel (listed_run hstart hrun) hstep,
      hsingle.step hexclusive hstocked hstep⟩

/-- **Concurrent misses of a primary grammar collapse into one load**, in whatever order drawings and
exchanges of engines take their steps.

At any time at most one task at a station is loading for a given primary grammar. A task begins at most one
load. And no load begins once a load for the same primary grammar, at the same station and with the same
engine, has succeeded. -/
theorem concurrent_misses_load_once (hmodel : model.Reliable) (hstart : start.tasks = [])
    (hrun : start.run model actions = some studio) :
    (∀ (number other : Nat) task twin name, studio.tasks[number]? = some task →
      studio.tasks[other]? = some twin → task.station = twin.station →
      task.stage.loads? = some name → twin.stage.loads? = some name → number = other) ∧
    (loadEvents model start actions).Pairwise (fun earlier later =>
      earlier.Begins → later.Begins → earlier.task ≠ later.task) ∧
    (loadEvents model start actions).Pairwise fun earlier later =>
      earlier.Succeeds → later.Begins → ¬ later.Alike earlier := by
  obtain ⟨hexclusive, -, hsingle⟩ := loads_run hmodel hstart hrun
  refine ⟨?_, hsingle.once, hsingle.needed⟩
  intro number other task twin name htask htwin hstation hloads hother
  exact hexclusive.one htask htwin hstation (Stage.lock?_of_loads? hloads)
    (Stage.lock?_of_loads? hother)

/-- A station with a highlighter in which nothing is loaded. -/
def freshStudio : Studio Highlighter TableLoad :=
  initial [.ofParser fun _ _ => none] [some 0] []

/-- A drawing in a language that has the given grammars is asked for. -/
def asking (key : String) (definitions : List GrammarDefinition) : Action Surroundings :=
  .render 0 ⟨"", some ⟨key, key, some (.fixed (.ok (.sequence definitions)) true)⟩, .empty, ""⟩

/-- A drawing looks up its engine, is given its grammars, and checks for the primary one. -/
def resolving (number : Nat) (definitions : List GrammarDefinition) : List (Action Surroundings) :=
  [.advance number ⟨.blank, []⟩, .answer number (.ok (.sequence definitions)),
    .advance number ⟨.blank, []⟩]

/-- Three drawings that all miss the grammar `x`, one after another taking its lock. The first is given tables
that cannot be driven. -/
def retrying : List (Action Surroundings) :=
  let unfit : List GrammarDefinition := [⟨some "x", .linked ⟨"x", 15⟩⟩]
  let fit : List GrammarDefinition := [⟨some "x", .linked ⟨"x", 14⟩⟩]
  [asking "a" unfit, asking "b" fit, asking "b" fit] ++ resolving 0 unfit ++ resolving 1 fit ++
    resolving 2 fit ++
    (List.replicate 6 0 ++ List.replicate 7 1 ++ List.replicate 3 2).map (.advance · ⟨.blank, []⟩)

/-- The first load fails, the second drawing loads in its turn, and the third finds the grammar loaded. -/
theorem concurrent_misses_load_once_retrying : ∃ studio,
    freshStudio.run Highlighter.model retrying = some studio ∧
      (loadEvents Highlighter.model freshStudio retrying).map
          (fun event => (event.task, event.result?.map Except.toBool))
        = [(0, none), (0, some false), (1, none), (1, some true)] ∧
      (loadEvents Highlighter.model freshStudio retrying).Pairwise fun earlier later =>
        earlier.Succeeds → later.Begins → ¬ later.Alike earlier := by
  obtain ⟨-, -, hneeded⟩ := @concurrent_misses_load_once _ _ _ Highlighter.model freshStudio _ retrying
    Highlighter.reliable_model rfl rfl
  exact ⟨_, rfl, rfl, hneeded⟩

end Studio

end CodeMarkup
