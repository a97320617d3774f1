import CodeMarkup.Proofs.Grammar.Meaning
import CodeMarkup.Proofs.Studio.Replies

/-!
# Engines bind names to what they mean

In a run, a name means what comes of preparing a definition that declares it: one that a language has resolved
to, in a world in which a task has taken a step. Whatever else happens, the engines bind each name to what it
means (`faithful_run`), through failed loads, names that are repeated and names that are passed over.

For this it matters in which world a load takes its steps (`advance_of_loading`), which moves leave open.
-/

namespace CodeMarkup

variable {World Engine Load : Type}

/-- The world in which a task takes a step. -/
def Action.world? : Action World → Option World
  | .advance _ world => some world
  | _ => none

/-- A load leaves the themes in stock and the parser as they are. -/
theorem Highlighter.made_of_advance {around : Surroundings} {highlighter after : Highlighter}
    {load : TableLoad} {progress : Progress TableLoad}
    (h : model.advance around highlighter load = (after, progress)) :
    after.themes = highlighter.themes ∧ after.parser = highlighter.parser := by
  obtain ⟨rfl, -⟩ := Prod.mk.inj h
  exact ⟨rfl, rfl⟩

namespace Studio

/-- The worlds in which tasks take their steps in a run. -/
def worlds (actions : List (Action World)) : List World :=
  actions.filterMap Action.world?

theorem worlds_concat (done : List (Action World)) (action : Action World) :
    worlds (done ++ [action]) = worlds done ++ action.world?.toList := by
  rw [worlds, worlds, List.filterMap_append]
  cases action <;> rfl

/-- A definition is on a list that a language has resolved to by one of some replies. -/
def Declared (replies : List Reply) (definition : GrammarDefinition) : Prop :=
  ∃ reply ∈ replies, ∃ resolution, reply.resolution = .ok resolution ∧
    definition ∈ resolution.definitions

theorem Declared.mono {replied more : List Reply} {definition : GrammarDefinition}
    (hsubset : replied ⊆ more) (h : Declared replied definition) : Declared more definition := by
  obtain ⟨reply, hreply, hdeclares⟩ := h
  exact ⟨reply, hsubset hreply, hdeclares⟩

/-! ## Engines -/

/-- **A load goes on in the world in which its task takes a step**, and nothing else changes the engine. -/
theorem advance_of_loading {model : EngineModel World Engine Load} {studio next : Studio Engine Load}
    {action : Action World} {number station index : Nat} {run : Run} {resolution : Resolution} {load : Load}
    (hstep : studio.step model action = some next) (haction : action.task? = some number)
    (htask : studio.tasks[number]? = some ⟨station, .running run (.loading index resolution load)⟩) :
    ∃ world engine after progress, action = .advance number world ∧ studio.engines[index]? = some engine ∧
      model.advance world engine load = (after, progress) ∧
      next.engines = (studio.modifyEngine index fun _ => after).engines ∧
      next.tasks = (studio.setStage number (.running run (match progress with
        | .going later => .loading index resolution later
        | .ended result => .unlocking index resolution result))).tasks := by
  cases action with
  | call | render => cases haction
  | answer own answer =>
    obtain rfl := Option.some.inj haction
    simp only [step, Studio.answer, htask, Option.bind_eq_bind, Option.bind_some] at hstep
    cases hstep
  | advance own world =>
    obtain rfl := Option.some.inj haction
    simp only [step, advance, htask, Option.bind_eq_bind, Option.bind_some, draw,
      Option.bind_eq_some_iff] at hstep
    obtain ⟨place, -, engine, hengine, h⟩ := hstep
    rcases hload : model.advance world engine load with ⟨after, later | result⟩
    · simp only [hload] at h
      obtain rfl := Option.some.inj h
      exact ⟨world, engine, after, _, rfl, hengine, hload, rfl, rfl⟩
    · simp only [hload] at h
      obtain rfl := Option.some.inj h
      exact ⟨world, engine, after, _, rfl, hengine, hload, rfl, rfl⟩

section Highlighters

variable {meaning : Meaning} {fresh : Highlighter} {start studio next : Studio Highlighter TableLoad}
  {number index : Nat} {actions : List (Action Surroundings)} {action : Action Surroundings}

/-- **Engines bind each name to what it means**, and are otherwise as they were made. -/
structure Faithful (meaning : Meaning) (fresh : Highlighter) (studio : Studio Highlighter TableLoad) :
    Prop where
  /-- the themes in stock and the parser stay the same -/
  made {index : Nat} {engine : Highlighter} : studio.engines[index]? = some engine →
    engine.themes = fresh.themes ∧ engine.parser = fresh.parser
  /-- what is bound is what the name means -/
  bound {index : Nat} {engine : Highlighter} : studio.engines[index]? = some engine →
    engine.table.TrueTo meaning
  /-- what is being loaded comes from a list -/
  loads {number index : Nat} {task : Task TableLoad} {run : Run} {resolution : Resolution}
      {load : TableLoad} : studio.tasks[number]? = some task →
    task.stage = .running run (.loading index resolution load) → load.From meaning resolution.definitions

/-- A call that is made is not loading yet. -/
theorem Faithful.addTask (h : studio.Faithful meaning fresh) {station : Nat} {stage : Stage TableLoad}
    (hidle : stage.mustLoad = false) : (studio.addTask station stage).Faithful meaning fresh := by
  refine ⟨h.made, h.bound, fun htask hstage => ?_⟩
  rcases getElem?_addTask_eq_some htask with ⟨-, rfl⟩ | ⟨-, hold⟩
  · obtain rfl : stage = _ := hstage
    cases hidle
  · exact h.loads hold hstage

/-- A step that leaves the engines alone. -/
theorem Faithful.setStage (h : studio.Faithful meaning fresh) {after : Stage TableLoad}
    (htasks : next.tasks = (studio.setStage number after).tasks) (hengines : next.engines = studio.engines)
    (hafter : ∀ run index resolution load, after = .running run (.loading index resolution load) →
      load.From meaning resolution.definitions) : next.Faithful meaning fresh := by
  refine ⟨fun hengine => h.made (hengines ▸ hengine), fun hengine => h.bound (hengines ▸ hengine),
    fun htask hstage => ?_⟩
  rw [htasks] at htask
  rcases getElem?_setStage_eq_some htask with ⟨-, before, -, rfl⟩ | ⟨-, hold⟩
  · exact hafter _ _ _ _ hstage
  · exact h.loads hold hstage

/-- A step of a load of definitions that are true to what their names mean. -/
theorem Faithful.load (h : studio.Faithful meaning fresh) {station : Nat} {run : Run}
    {resolution : Resolution} {load : TableLoad}
    (hstep : studio.step Highlighter.model action = some next) (haction : action.task? = some number)
    (htask : studio.tasks[number]? = some ⟨station, .running run (.loading index resolution load)⟩)
    (htrue : ∀ around, action.world? = some around → ∀ definition ∈ resolution.definitions,
      definition.TrueTo meaning around) : next.Faithful meaning fresh := by
  obtain ⟨around, engine, after, progress, rfl, hengine, hadvance, hengines, htasks⟩ :=
    advance_of_loading hstep haction htask
  have hfrom := h.loads htask rfl
  have hload := Highlighter.loadStep_of_advance hadvance
  have hengine? : ∀ {other : Nat} {later : Highlighter}, next.engines[other]? = some later →
      later = after ∨ studio.engines[other]? = some later := by
    intro other later hlater
    rw [hengines] at hlater
    exact (getElem?_modify_eq_some hlater).imp (fun ⟨_, _, _, hsame⟩ => hsame) And.right
  constructor
  case made =>
    intro other later hlater
    rcases hengine? hlater with rfl | hold
    · obtain ⟨hthemes, hparser⟩ := Highlighter.made_of_advance hadvance
      exact ⟨hthemes.trans (h.made hengine).1, hparser.trans (h.made hengine).2⟩
    · exact h.made hold
  case bound =>
    intro other later hlater
    rcases hengine? hlater with rfl | hold
    · exact hload.trueTo hfrom (h.bound hengine)
    · exact h.bound hold
  case loads =>
    intro other place task run resolution later hlater hstage
    rw [htasks] at hlater
    rcases getElem?_setStage_eq_some hlater with ⟨-, before, -, rfl⟩ | ⟨-, hold⟩
    · rcases progress with going | result
      · cases hstage
        exact hload.from (htrue around rfl) hfrom
      · cases hstage
    · exact h.loads hold hstage

/-- **A step keeps engines faithful** if every definition that is loaded is true to what its name means. -/
theorem Faithful.step (h : studio.Faithful meaning fresh)
    (hstep : studio.step Highlighter.model action = some next)
    (htrue : ∀ around, action.world? = some around → ∀ (number : Nat) (task : Task TableLoad)
      (resolution : Resolution), studio.tasks[number]? = some task →
      task.stage.resolution? = some resolution →
      ∀ definition ∈ resolution.definitions, definition.TrueTo meaning around) :
    next.Faithful meaning fresh := by
  rcases step_inv hstep with ⟨_, _, _, -, -, rfl⟩ | ⟨_, _, -, -, rfl⟩ |
    ⟨number, ⟨station, stage⟩, haction, hmoved, hmove⟩
  · exact h.addTask rfl
  · exact h.addTask rfl
  · obtain ⟨after, htasks, -, hload⟩ := hmove.loadMove
    cases hload with
    | work _ hafter _ hengines =>
      refine h.setStage htasks hengines ?_
      rintro run index resolution load rfl
      cases hafter
    | missing _ _ hengines =>
      refine h.setStage htasks hengines ?_
      rintro run index resolution load ⟨⟩
    | start hengines =>
      refine h.setStage htasks hengines ?_
      rintro run index resolution load ⟨⟩
      exact TableLoad.from_ofList meaning _
    | load | loaded =>
      refine h.load hstep haction hmoved fun around hworld => ?_
      exact htrue around hworld number _ _ hmoved rfl

/-- **Engines are faithful after a run** of a studio whose engines were fresh. -/
theorem faithful_run (hstart : start.tasks = []) (hfresh : ∀ engine ∈ start.engines, engine = fresh)
    (hempty : fresh.table = .empty) (hrun : start.run Highlighter.model actions = some studio)
    (htrue : ∀ definition, Declared (replies Highlighter.model start actions) definition →
      ∀ around ∈ worlds actions, definition.TrueTo meaning around) :
    studio.Faithful meaning fresh := by
  refine @run_induction _ _ _ Highlighter.model start (fun actions studio =>
    (∀ definition, Declared (replies Highlighter.model start actions) definition →
      ∀ around ∈ worlds actions, definition.TrueTo meaning around) → studio.Faithful meaning fresh)
    ?_ ?_ actions studio hrun htrue
  · intro _
    constructor
    case made =>
      intro index engine hengine
      obtain rfl := hfresh engine (List.mem_of_getElem? hengine)
      exact ⟨rfl, rfl⟩
    case bound =>
      intro index engine hengine
      rw [hfresh engine (List.mem_of_getElem? hengine), hempty]
      exact GrammarTable.empty_trueTo meaning
    case loads =>
      intro number index task run resolution load htask
      rw [hstart, List.getElem?_nil] at htask
      cases htask
  · intro done studio action next hrun ih hstep htrue
    rw [replies_concat hrun hstep, worlds_concat] at htrue
    have hbefore : ∀ definition, Declared (replies Highlighter.model start done) definition →
        ∀ around ∈ worlds done ++ action.world?.toList, definition.TrueTo meaning around :=
      fun definition hdeclared => htrue definition (hdeclared.mono (List.subset_append_left ..))
    have hfaithful := ih fun definition hdeclared around haround =>
      hbefore definition hdeclared around (List.mem_append_left _ haround)
    refine hfaithful.step hstep fun around hworld number task resolution htask hresolution definition
      hdefinition => ?_
    obtain ⟨run, -, reply, hreply, -, hreplied⟩ := (resolved_run hstart hrun htask).resolved hresolution
    exact hbefore definition ⟨reply, hreply, resolution, hreplied, hdefinition⟩ around
      (List.mem_append_right _ (Option.mem_toList.mpr hworld))

end Highlighters

end Studio

end CodeMarkup
