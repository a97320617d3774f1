import CodeMarkup.Proofs.Studio.LoadOnce

/-!
# Dependencies of what is drawn

A drawing goes ahead once its primary grammar is loaded. It asks for that one name, and whatever loaded the
name counts. With an engine that is `Frugal`, that was a list that was loaded whole and names the primary
grammar (`loaded_of_drawing`). It need not have been the drawing's own list, though: where two languages have
lists of their own that name one grammar, the drawing of the second may find its primary grammar loaded by the
first, and then it goes ahead without the dependencies that only its own list names
(`drawing_without_dependency`).
-/

namespace CodeMarkup

variable {World Engine Load : Type}

/-- The engine and the grammars of a drawing whose primary grammar was found, or has been loaded. -/
def Phase.placed? : Phase Load → Option (Nat × Resolution)
  | .unlocking index resolution (.ok ()) | .drawing index resolution => some (index, resolution)
  | _ => none

/-- The engine and the grammars of a call whose primary grammar was found, or has been loaded. -/
def Stage.placed? : Stage Load → Option (Nat × Resolution)
  | .running _ phase => phase.placed?
  | _ => none

namespace Studio

variable {model : EngineModel World Engine Load} {start studio next : Studio Engine Load}
  {actions : List (Action World)} {action : Action World} {number station index : Nat}
  {resolution : Resolution} {events : List LoadEvent}

/-- **What is known of loaded names**, given the loads that have begun and ended. -/
structure Furnished (model : EngineModel World Engine Load) (studio : Studio Engine Load)
    (events : List LoadEvent) : Prop where
  /-- what a drawing goes ahead with is loaded -/
  placed {number index : Nat} {task : Task Load} {resolution : Resolution} {engine : Engine} :
    studio.tasks[number]? = some task → task.stage.placed? = some (index, resolution) →
    studio.engines[index]? = some engine → model.isLoaded engine resolution.primary = true
  /-- what is loaded was on a list that was loaded -/
  loaded {index : Nat} {engine : Engine} {name : String} : studio.engines[index]? = some engine →
    model.isLoaded engine name = true → ∃ event ∈ events, event.Succeeds ∧ event.engine = index ∧
      name ∈ declaredNames event.resolution.definitions

/-- **A task that goes ahead has found its primary grammar, or has loaded it.** -/
theorem Move.placed {stage : Stage Load} (hmodel : model.Reliable) (hlisted : studio.Listed)
    (hstocked : studio.Stocked model events) (hmoved : studio.tasks[number]? = some ⟨station, stage⟩)
    (hmove : Move model studio number station stage next)
    (hbefore : ∀ index resolution engine, stage.placed? = some (index, resolution) →
      studio.engines[index]? = some engine → model.isLoaded engine resolution.primary = true) :
    ∃ after, next.tasks = (studio.setStage number after).tasks ∧ ∀ index resolution engine,
      after.placed? = some (index, resolution) → next.engines[index]? = some engine →
      model.isLoaded engine resolution.primary = true := by
  cases hmove with
  | @read run place =>
    obtain ⟨result, hphase⟩ | ⟨engine, language, hphase⟩ :=
      @firstPhase_cases Load run.request place.engine
    all_goals
      rw [hphase]
      exact ⟨_, rfl, nofun⟩
  | check hengine | recheck hengine =>
    refine ⟨_, rfl, fun index resolution engine hplaced hfound => ?_⟩
    split at hplaced
    · rename_i hloaded
      obtain ⟨rfl, rfl⟩ := Prod.mk.inj (Option.some.inj hplaced)
      obtain rfl := Option.some.inj (hengine.symm.trans hfound)
      exact hloaded
    · cases hplaced
  | @loaded run own resolution load world engine after result hengine hload =>
    refine ⟨_, rfl, fun index other grown hplaced hfound => ?_⟩
    rcases result with failure | done
    · cases hplaced
    · obtain ⟨rfl, rfl⟩ := Prod.mk.inj (Option.some.inj hplaced)
      have hafter : (studio.engines.modify own fun _ => after)[own]? = some grown := hfound
      rw [List.getElem?_modify_eq, hengine] at hafter
      obtain rfl := Option.some.inj hafter
      exact hmodel.loads (hstocked.underway hmoved rfl hengine) hload (hlisted _ _ _ hmoved rfl)
  | unlock => exact ⟨_, rfl, hbefore⟩
  | _ => exact ⟨_, rfl, nofun⟩

/-- What a drawing goes ahead with after a step is loaded. -/
theorem Furnished.placed_step (h : studio.Furnished model events) (hmodel : model.Reliable)
    (hlisted : studio.Listed) (hstocked : studio.Stocked model events)
    (hstep : studio.step model action = some next) {task : Task Load} {engine : Engine}
    (htask : next.tasks[number]? = some task) (hplaced : task.stage.placed? = some (index, resolution))
    (hengine : next.engines[index]? = some engine) :
    model.isLoaded engine resolution.primary = true := by
  rcases step_inv hstep with ⟨_, call, view, -, -, rfl⟩ | ⟨place, request, -, -, rfl⟩ |
    ⟨mover, ⟨place, stage⟩, -, hmoved, hmove⟩
  · rcases getElem?_addTask_eq_some htask with ⟨-, rfl⟩ | ⟨-, hold⟩
    · cases hplaced
    · exact h.placed hold hplaced hengine
  · rcases getElem?_addTask_eq_some htask with ⟨-, rfl⟩ | ⟨-, hold⟩
    · cases hplaced
    · exact h.placed hold hplaced hengine
  · obtain ⟨after, htasks, hafter⟩ := hmove.placed hmodel hlisted hstocked hmoved
      fun _ _ _ => h.placed hmoved
    rw [htasks] at htask
    rcases getElem?_setStage_eq_some htask with ⟨-, mine, -, rfl⟩ | ⟨-, hold⟩
    · exact hafter index resolution engine hplaced hengine
    · obtain ⟨_, -, -, hload⟩ := hmove.loadMove
      exact hload.isLoaded hmodel hengine fun old => h.placed hold hplaced

/-- What is loaded after a turn was loaded before, or was on the list of a load that has ended. -/
theorem Turn.loaded_cases {before after : Stage Load} {engine : Engine} {name : String}
    (hfrugal : model.Frugal) (hstocked : studio.Stocked model events)
    (hturn : Turn model studio next number station before after)
    (hengine : next.engines[index]? = some engine) (hloaded : model.isLoaded engine name = true) :
    (∃ old, studio.engines[index]? = some old ∧ model.isLoaded old name = true) ∨
      ∃ event, before.loadEvent? number station after = some event ∧ event.Succeeds ∧
        event.engine = index ∧ name ∈ declaredNames event.resolution.definitions := by
  obtain ⟨old, hfound, rfl | ⟨_, _, _, _, _, rfl, hload, hended⟩⟩ := hturn.load.engine hengine
  · exact Or.inl ⟨engine, hfound, hloaded⟩
  · rcases hfrugal (hstocked.underway hturn.moved rfl hfound) hload hloaded with hbefore | ⟨hok, hmem⟩
    · exact Or.inl ⟨old, hfound, hbefore⟩
    · obtain rfl := hended _ hok
      exact Or.inr ⟨_, rfl, rfl, rfl, hmem⟩

/-- **A step keeps what is known of loaded names.** -/
theorem Furnished.step (h : studio.Furnished model events) (hmodel : model.Reliable)
    (hfrugal : model.Frugal) (hlisted : studio.Listed) (hstocked : studio.Stocked model events)
    (hstep : studio.step model action = some next) :
    next.Furnished model (events ++ (studio.loadEvent? next action).toList) := by
  constructor
  case placed => exact h.placed_step hmodel hlisted hstocked hstep
  case loaded =>
    intro index engine name hengine hloaded
    rcases turn_of_step hstep with ⟨_, _, -, -, rfl, hevent⟩ | ⟨_, _, _, _, hturn, hevent⟩ <;>
      rw [hevent]
    · rw [Option.toList_none, List.append_nil]
      exact h.loaded hengine hloaded
    · rcases hturn.loaded_cases hfrugal hstocked hengine hloaded with ⟨old, hfound, hbefore⟩ |
        ⟨event, hnew, hsucceeds⟩
      · obtain ⟨event, hmem, hsucceeds⟩ := h.loaded hfound hbefore
        exact ⟨event, List.mem_append_left _ hmem, hsucceeds⟩
      · exact ⟨event, List.mem_append_right _ (Option.mem_toList.mpr hnew), hsucceeds⟩

/-- **What is known of loaded names after a run** of a studio whose engines had nothing loaded. -/
theorem furnished_run (hmodel : model.Reliable) (hfrugal : model.Frugal) (hstart : start.tasks = [])
    (hempty : ∀ engine ∈ start.engines, ∀ name, model.isLoaded engine name = false)
    (hrun : start.run model actions = some studio) :
    studio.Furnished model (loadEvents model start actions) := by
  refine @run_induction _ _ _ model start (fun actions studio =>
    studio.Furnished model (loadEvents model start actions)) ?_ ?_ actions studio hrun
  · constructor
    case placed =>
      intro number index task resolution engine htask
      rw [hstart, List.getElem?_nil] at htask
      cases htask
    case loaded =>
      intro index engine name hengine hloaded
      rw [hempty engine (List.mem_of_getElem? hengine)] at hloaded
      cases hloaded
  · intro done studio action next hrun hfurnished hstep
    obtain ⟨-, hstocked, -⟩ := loads_run hmodel hstart hrun
    rw [loadEvents_concat hrun hstep]
    exact hfurnished.step hmodel hfrugal (listed_run hstart hrun) hstocked hstep

/-- **A drawing goes ahead only on lists that were loaded whole**, if its engine had nothing loaded at first.

When it does, each list that was loaded with success is loaded, and one of them names its primary grammar.
So its own list is loaded too, if whatever was loaded and names the primary grammar names all of that list. -/
theorem loaded_of_drawing (hmodel : model.Reliable) (hfrugal : model.Frugal) (hstart : start.tasks = [])
    (hempty : ∀ engine ∈ start.engines, ∀ name, model.isLoaded engine name = false)
    (hrun : start.run model actions = some studio) {task : Task Load} {run : Run} {engine : Engine}
    (htask : studio.tasks[number]? = some task)
    (hdrawing : task.stage = .running run (.drawing index resolution))
    (hengine : studio.engines[index]? = some engine) :
    (∀ event ∈ loadEvents model start actions, event.Succeeds → event.engine = index →
      ∀ name ∈ declaredNames event.resolution.definitions, model.isLoaded engine name = true) ∧
    (∃ event ∈ loadEvents model start actions, event.Succeeds ∧ event.engine = index ∧
      resolution.primary ∈ declaredNames event.resolution.definitions) ∧
    ((∀ event ∈ loadEvents model start actions, event.Succeeds → event.engine = index →
        resolution.primary ∈ declaredNames event.resolution.definitions →
        declaredNames resolution.definitions ⊆ declaredNames event.resolution.definitions) →
      ∀ name ∈ declaredNames resolution.definitions, model.isLoaded engine name = true) := by
  obtain ⟨-, hstocked, -⟩ := loads_run hmodel hstart hrun
  have hfurnished := furnished_run hmodel hfrugal hstart hempty hrun
  have hwhole : ∀ event ∈ loadEvents model start actions, event.Succeeds → event.engine = index →
      ∀ name ∈ declaredNames event.resolution.definitions, model.isLoaded engine name = true :=
    fun event hmem hsucceeds hindex name hname => hstocked.loaded hmem hsucceeds (hindex ▸ hengine) hname
  have hplaced : task.stage.placed? = some (index, resolution) := by
    rw [hdrawing]
    rfl
  obtain ⟨event, hmem, hsucceeds, hindex, hprimary⟩ :=
    hfurnished.loaded hengine (hfurnished.placed htask hplaced hengine)
  refine ⟨hwhole, ⟨event, hmem, hsucceeds, hindex, hprimary⟩, fun hsame name hname => ?_⟩
  exact hwhole event hmem hsucceeds hindex name (hsame event hmem hsucceeds hindex hprimary hname)

/-- A language that needs `y` for `x`, drawn after one that needs `z` besides has been loaded. -/
def sharing : List (Action Surroundings) :=
  let two : List GrammarDefinition := [⟨some "y", .linked ⟨"y", 14⟩⟩, ⟨some "x", .linked ⟨"x", 14⟩⟩]
  let three : List GrammarDefinition := ⟨some "z", .linked ⟨"z", 14⟩⟩ :: two
  asking "a" three :: resolving 0 three ++ List.replicate 11 (.advance 0 ⟨.blank, []⟩) ++
    asking "b" two :: resolving 1 two

/-- All that the second language needs is there when it is drawn, though it has loaded nothing. -/
theorem loaded_of_drawing_sharing : ∃ studio task run resolution engine,
    freshStudio.run Highlighter.model sharing = some studio ∧ studio.tasks[1]? = some task ∧
      task.stage = .running run (.drawing 0 resolution) ∧ studio.engines[0]? = some engine ∧
      (loadEvents Highlighter.model freshStudio sharing).map (·.task) = [0, 0] ∧
      ∀ name ∈ ["y", "x"], Highlighter.model.isLoaded engine name = true := by
  have hempty : ∀ engine ∈ freshStudio.engines, ∀ name,
      Highlighter.model.isLoaded engine name = false := by
    intro engine hmem name
    obtain rfl := List.mem_singleton.mp hmem
    rfl
  obtain ⟨-, -, hall⟩ := @loaded_of_drawing _ _ _ Highlighter.model freshStudio _ sharing 1 0 _
    Highlighter.reliable_model Highlighter.frugal_model rfl hempty rfl _ _ _ rfl rfl rfl
  refine ⟨_, _, _, _, _, rfl, rfl, rfl, rfl, rfl, hall fun event hmem _ _ _ => ?_⟩
  rcases List.mem_cons.mp hmem with rfl | hmem
  · exact List.subset_cons_self ..
  · obtain rfl := List.mem_singleton.mp hmem
    exact List.subset_cons_self ..

/-- A language that needs `y` for `x`, drawn after one that needs `x` alone has been loaded. -/
def borrowing : List (Action Surroundings) :=
  let one : List GrammarDefinition := [⟨some "x", .linked ⟨"x", 14⟩⟩]
  let two : List GrammarDefinition := ⟨some "y", .linked ⟨"y", 14⟩⟩ :: one
  asking "a" one :: resolving 0 one ++ List.replicate 7 (.advance 0 ⟨.blank, []⟩) ++
    asking "b" two :: resolving 1 two

/-- **A drawing may go ahead without a dependency**, if another language has loaded its primary grammar. -/
theorem drawing_without_dependency : ∃ studio task run resolution engine,
    freshStudio.run Highlighter.model borrowing = some studio ∧ studio.tasks[1]? = some task ∧
      task.stage = .running run (.drawing 0 resolution) ∧ studio.engines[0]? = some engine ∧
      "y" ∈ declaredNames resolution.definitions ∧ Highlighter.model.isLoaded engine "y" = false :=
  ⟨_, _, _, _, _, rfl, rfl, rfl, rfl, List.mem_cons_self, rfl⟩

end Studio

end CodeMarkup
