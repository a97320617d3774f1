import CodeMarkup.Proofs.Language.Chain
import CodeMarkup.Proofs.Studio.Faithful

/-!
# Warm engines draw like cold ones

A drawing that finds its primary grammar loaded loads nothing. Whoever has loaded the grammar, the markup is the
one that would have come of an engine with nothing loaded (`markup_eq_of_cold`), as long as names mean one thing:
whatever definitions of a name come up have one source, suppliers yield the same bundle each time, and
libraries stay as they are.

Two runs are compared only at the end. Of each of them it is known that a drawing has been drawn at one moment
of the run (`drew_run`), with what its language had resolved to by then and by an engine that binds every name to
what it means.
-/

namespace CodeMarkup

variable {World Engine Load : Type}

/-- The markup is the escaped code, because there is no language to highlight. -/
def Request.IsPlain (request : Request) (markup : String) : Prop :=
  request.highlighted? = none ∧ markup = Text.escapePlain request.code

/-- What has come of a drawing that is done. -/
def Stage.done? : Stage Load → Option (Run × Option Nat × String)
  | .running run (.drawn engine (.ok markup)) => some (run, engine, markup)
  | .ended ending => ending.drawn?
  | _ => none

theorem Stage.done?_of_drawn? {stage : Stage Load} {drawn : Run × Option Nat × String}
    (h : stage.drawn? = some drawn) : stage.done? = some drawn := by
  cases stage with
  | ended => exact h
  | _ => cases h

namespace Studio

section Moments

variable {model : EngineModel World Engine Load} {start studio next : Studio Engine Load}
  {number station index : Nat} {done actions : List (Action World)} {action : Action World} {run : Run}
  {markup : String}

/-- **A task has drawn with an engine**, at a moment of the run at which its grammars were in place. -/
def Drew (model : EngineModel World Engine Load) (start : Studio Engine Load)
    (actions : List (Action World)) (number : Nat) (run : Run) (index : Nat) (markup : String) : Prop :=
  ∃ before after middle task resolution engine world, actions = before ++ after ∧
    start.run model before = some middle ∧ middle.tasks[number]? = some task ∧
    task.stage = .running run (.drawing index resolution) ∧ middle.engines[index]? = some engine ∧
    model.draw world engine (run.request.query resolution.primary) = .ok markup

theorem Drew.concat (h : Drew model start done number run index markup) :
    Drew model start (done ++ [action]) number run index markup := by
  obtain ⟨before, after, middle, task, resolution, engine, world, rfl, hmoment⟩ := h
  exact ⟨before, after ++ [action], middle, task, resolution, engine, world, List.append_assoc .., hmoment⟩

/-- A drawing that has looked up its engine is done at once only if there is no language to highlight. -/
theorem plain_of_firstPhase {engine : Option Nat} {drawn : Run}
    (h : (Stage.running run (firstPhase run.request engine) : Stage Load).done?
      = some (drawn, some index, markup)) : drawn.request.IsPlain markup := by
  rcases engine with _ | number
  · cases h
  · rw [firstPhase] at h
    rcases hlanguage : run.request.highlighted? with _ | language
    · rw [hlanguage] at h
      cases h
      exact ⟨hlanguage, rfl⟩
    · rw [hlanguage] at h
      dsimp only at h
      split at h <;> cases h

/-- **A move gets a drawing done by drawing**, or by escaping its code. -/
theorem Move.done? {stage : Stage Load} (hmove : Move model studio number station stage next) :
    ∃ after, next.tasks = (studio.setStage number after).tasks ∧ ∀ run index markup,
      after.done? = some (run, some index, markup) →
      stage.done? = some (run, some index, markup) ∨ run.request.IsPlain markup ∨
      ∃ resolution engine world, stage = .running run (.drawing index resolution) ∧
        studio.engines[index]? = some engine ∧
        model.draw world engine (run.request.query resolution.primary) = .ok markup := by
  cases hmove with
  | read => exact ⟨_, rfl, fun run index markup hdone => Or.inr (Or.inl (plain_of_firstPhase hdone))⟩
  | check | recheck =>
    refine ⟨_, rfl, fun run index markup hdone => ?_⟩
    split at hdone <;> cases hdone
  | @draw run own resolution world engine hengine =>
    refine ⟨_, rfl, fun other index markup hdone => ?_⟩
    rcases hdraw : model.draw world engine (run.request.query resolution.primary) with fault | drawn
    · rw [hdraw] at hdone
      cases hdone
    · rw [hdraw] at hdone
      cases hdone
      exact Or.inr (Or.inr ⟨resolution, engine, world, rfl, hengine, hdraw⟩)
  | deliver | drop | keep | display => exact ⟨_, rfl, fun run index markup hdone => Or.inl hdone⟩
  | _ =>
    refine ⟨_, rfl, fun run index markup hdone => ?_⟩
    cases hdone

/-- **Every drawing that is done has drawn at some moment**, unless there was no language to highlight. -/
theorem drew_run (hstart : start.tasks = []) (hrun : start.run model actions = some studio)
    {task : Task Load} (htask : studio.tasks[number]? = some task)
    (hdone : task.stage.done? = some (run, some index, markup)) :
    run.request.IsPlain markup ∨ Drew model start actions number run index markup := by
  refine @run_induction _ _ _ model start (fun actions studio => ∀ number task run index markup,
    studio.tasks[number]? = some task → task.stage.done? = some (run, some index, markup) →
    run.request.IsPlain markup ∨ Drew model start actions number run index markup) ?_ ?_ actions studio hrun
    number task run index markup htask hdone
  · intro number task run index markup htask
    rw [hstart] at htask
    cases htask
  · intro done studio action next hrun ih hstep other task run index markup htask hdone
    have hold : studio.tasks[other]? = some task →
        run.request.IsPlain markup ∨ Drew model start (done ++ [action]) other run index markup :=
      fun hbefore => (ih other task run index markup hbefore hdone).imp_right Drew.concat
    rcases step_inv hstep with ⟨_, _, _, -, -, rfl⟩ | ⟨_, _, -, -, rfl⟩ |
      ⟨number, ⟨station, stage⟩, -, hmoved, hmove⟩
    · rcases getElem?_addTask_eq_some htask with ⟨-, rfl⟩ | ⟨-, hbefore⟩
      · cases hdone
      · exact hold hbefore
    · rcases getElem?_addTask_eq_some htask with ⟨-, rfl⟩ | ⟨-, hbefore⟩
      · cases hdone
      · exact hold hbefore
    · obtain ⟨after, htasks, hafter⟩ := hmove.done?
      rw [htasks] at htask
      rcases getElem?_setStage_eq_some htask with ⟨rfl, before, hbefore, rfl⟩ | ⟨-, hbefore⟩
      · rcases hafter run index markup hdone with hearlier | hplain | ⟨resolution, engine, world, hmoment⟩
        · exact (ih other _ run index markup hmoved hearlier).imp_right Drew.concat
        · exact Or.inl hplain
        · exact Or.inr ⟨done, [action], studio, _, resolution, engine, world, rfl, hrun, hmoved, hmoment⟩
      · exact hold hbefore

/-- What a task has drawn with is what its language had resolved to by then. -/
theorem resolvedBy_of_drawing (hstart : start.tasks = []) (hrun : start.run model actions = some studio)
    {task : Task Load} {resolution : Resolution} (htask : studio.tasks[number]? = some task)
    (hdrawing : task.stage = .running run (.drawing index resolution)) :
    ResolvedBy (replies model start actions) run.request resolution := by
  have hresolution : task.stage.resolution? = some resolution := hdrawing ▸ rfl
  obtain ⟨same, hsame, hresolved⟩ := (resolved_run hstart hrun htask).resolved hresolution
  rw [hdrawing] at hsame
  obtain rfl := Option.some.inj hsame
  exact hresolved

theorem Drew.highlighted?_ne_none (h : Drew model start actions number run index markup)
    (hstart : start.tasks = []) : run.request.highlighted? ≠ none := by
  obtain ⟨before, _, middle, task, resolution, _, _, -, hbefore, htask, hdrawing, -⟩ := h
  obtain ⟨reply, -, hlanguage, -⟩ := resolvedBy_of_drawing hstart hbefore htask hdrawing
  rw [hlanguage]
  exact Option.some_ne_none _

end Moments

/-! ## What names mean in a run -/

/-- What comes of preparing a definition that declares a name, once a language has resolved to it, in one of
some worlds. -/
def meaningOf (replied : List Reply) (surroundings : List Surroundings) : Meaning := fun name grammar =>
  ∃ definition, Declared replied definition ∧ definition.name = some name ∧
    ∃ around ∈ surroundings, definition.source.prepare around = .ok grammar

/-- Suppliers yield the same bundle each time. -/
def Steady (replied : List Reply) : Prop :=
  ∀ reply ∈ replied, ∀ other ∈ replied, ∀ bundle twin, reply.language = other.language →
    reply.answer = .ok bundle → other.answer = .ok twin → bundle = twin

/-- Definitions of one name have one source. -/
def Consistent (replied : List Reply) : Prop :=
  ∀ definition twin name, Declared replied definition → Declared replied twin →
    definition.name = some name → twin.name = some name → definition.source = twin.source

/-- Libraries stay as they are. -/
def Lasting (surroundings : List Surroundings) : Prop :=
  ∀ around ∈ surroundings, ∀ other ∈ surroundings, around.Agrees other

section Meanings

variable {replied : List Reply} {surroundings : List Surroundings}

/-- **A name means one thing.** -/
theorem meaning_unique (hconsistent : Consistent replied) (hlasting : Lasting surroundings) {name : String}
    {grammar twin : Grammar} (hgrammar : meaningOf replied surroundings name grammar)
    (htwin : meaningOf replied surroundings name twin) : grammar = twin := by
  obtain ⟨definition, hdeclared, hname, around, haround, hprepare⟩ := hgrammar
  obtain ⟨rival, hrival, hsame, other, hother, htwin⟩ := htwin
  have hsource := hconsistent definition rival name hdeclared hrival hname hsame
  rw [← hsource] at htwin
  exact GrammarSource.eq_of_prepare (hlasting around haround other hother) hprepare htwin

/-- **A language resolves to one thing.** -/
theorem ResolvedBy.unique (hsteady : Steady replied) {request : Request} {resolution twin : Resolution}
    (h : ResolvedBy replied request resolution) (htwin : ResolvedBy replied request twin) :
    resolution = twin := by
  obtain ⟨⟨language, answer⟩, hmem, hlanguage, hresolution⟩ := h
  obtain ⟨⟨other, again⟩, hother, hsame, htwin⟩ := htwin
  obtain rfl : language = other := Option.some.inj (hlanguage.symm.trans hsame)
  obtain ⟨bundle, rfl, hresolve⟩ := Language.resolve?_of_resolution hresolution
  obtain ⟨rival, rfl, hrival⟩ := Language.resolve?_of_resolution htwin
  obtain rfl : bundle = rival := hsteady _ hmem _ hother _ _ rfl rfl rfl
  exact Option.some.inj (hresolve.symm.trans hrival)

variable {fresh : Highlighter} {start studio : Studio Highlighter TableLoad} {number index : Nat}
  {actions : List (Action Surroundings)} {run : Run} {markup : String}

/-- **What a drawing has drawn with**, in a run whose replies and worlds are among some: a list that its language
has resolved to, and an engine that binds names to what they mean. -/
theorem Drew.faithful (h : Drew Highlighter.model start actions number run index markup)
    (hstart : start.tasks = []) (hfresh : ∀ engine ∈ start.engines, engine = fresh)
    (hempty : fresh.table = .empty) (hrun : start.run Highlighter.model actions = some studio)
    (hreplied : replies Highlighter.model start actions ⊆ replied)
    (hsurroundings : worlds actions ⊆ surroundings) :
    ∃ (resolution : Resolution) (engine : Highlighter), ResolvedBy replied run.request resolution ∧
      engine.themes = fresh.themes ∧ engine.parser = fresh.parser ∧
      engine.table.TrueTo (meaningOf replied surroundings) ∧
      engine.draw (run.request.query resolution.primary) = .ok markup := by
  obtain ⟨before, after, middle, task, resolution, engine, _, rfl, hbefore, htask, hdrawing, hengine, hdraw⟩ := h
  rw [run_append, hbefore, Option.bind_some] at hrun
  have hsubset := List.Subset.trans (replies_subset hbefore hrun) hreplied
  have hworlds : worlds before ⊆ surroundings := fun around haround => hsurroundings <| by
    rw [worlds, List.filterMap_append]
    exact List.mem_append_left _ haround
  have hfaithful : middle.Faithful (meaningOf replied surroundings) fresh := by
    refine faithful_run hstart hfresh hempty hbefore ?_
    intro definition hdeclared around haround name grammar hname hprepare
    exact ⟨definition, hdeclared.mono hsubset, hname, around, hworlds haround, hprepare⟩
  have hresolved := resolvedBy_of_drawing hstart hbefore htask hdrawing
  obtain ⟨hthemes, hparser⟩ := hfaithful.made hengine
  exact ⟨resolution, engine, hresolved.mono hsubset, hthemes, hparser, hfaithful.bound hengine, hdraw⟩

end Meanings

/-- Two highlighters that differ at most in what they have loaded draw alike, if the grammar that they are asked
for is the same. -/
theorem draw_unique {one other : Highlighter} {query : Query} {markup twin : String}
    (hthemes : one.themes = other.themes) (hparser : one.parser = other.parser)
    (hfind : ∀ grammar rival, one.table.find? query.grammar = some grammar →
      other.table.find? query.grammar = some rival → grammar = rival)
    (hone : one.draw query = .ok markup) (hother : other.draw query = .ok twin) : markup = twin := by
  rcases hgrammar : one.table.find? query.grammar with _ | grammar
  · simp only [Highlighter.draw, Highlighter.list, hgrammar] at hone
    cases hone
  · rcases hrival : other.table.find? query.grammar with _ | rival
    · simp only [Highlighter.draw, Highlighter.list, hrival] at hother
      cases hother
    · obtain rfl := hfind grammar rival hgrammar hrival
      have hsame : one.draw query = other.draw query := by
        simp only [Highlighter.draw, Highlighter.list, Highlighter.theme?, hgrammar, hrival, hthemes,
          hparser]
      exact Except.ok.inj (hone.symm.trans (hsame.trans hother))

section Runs

variable {fresh : Highlighter} {start coldStart studio coldStudio : Studio Highlighter TableLoad}
  {actions coldActions : List (Action Surroundings)} {number coldNumber index coldIndex : Nat}
  {task coldTask : Task TableLoad} {run coldRun : Run} {markup coldMarkup : String}

/-- **A warm engine draws a request as a cold one does.**

A request has been drawn in each of two runs over engines that were fresh at first and alike: for example in a
run of many drawings, some of which have failed, and in a run of its own. Then the two markups are equal if
names mean one thing throughout both runs. -/
theorem markup_eq_of_cold (hempty : fresh.table = .empty)
    (hstart : start.tasks = []) (hfresh : ∀ engine ∈ start.engines, engine = fresh)
    (hrun : start.run Highlighter.model actions = some studio)
    (hcoldStart : coldStart.tasks = []) (hcoldFresh : ∀ engine ∈ coldStart.engines, engine = fresh)
    (hcoldRun : coldStart.run Highlighter.model coldActions = some coldStudio)
    (hsteady : Steady (replies Highlighter.model start actions ++
      replies Highlighter.model coldStart coldActions))
    (hconsistent : Consistent (replies Highlighter.model start actions ++
      replies Highlighter.model coldStart coldActions))
    (hlasting : Lasting (worlds (actions ++ coldActions)))
    (htask : studio.tasks[number]? = some task) (hcoldTask : coldStudio.tasks[coldNumber]? = some coldTask)
    (hdrawn : task.stage.drawn? = some (run, some index, markup))
    (hcoldDrawn : coldTask.stage.drawn? = some (coldRun, some coldIndex, coldMarkup))
    (hsame : run.request = coldRun.request) : markup = coldMarkup := by
  rcases drew_run hstart hrun htask (Stage.done?_of_drawn? hdrawn) with ⟨hplain, rfl⟩ | hdrew <;>
    rcases drew_run hcoldStart hcoldRun hcoldTask (Stage.done?_of_drawn? hcoldDrawn) with
      ⟨hcoldPlain, rfl⟩ | hcoldDrew
  · rw [hsame]
  · exact absurd (hsame ▸ hplain) (hcoldDrew.highlighted?_ne_none hcoldStart)
  · exact absurd (hsame ▸ hcoldPlain) (hdrew.highlighted?_ne_none hstart)
  · have hworlds : worlds (actions ++ coldActions) = worlds actions ++ worlds coldActions :=
      List.filterMap_append ..
    rw [hworlds] at hlasting
    obtain ⟨resolution, engine, hresolved, hthemes, hparser, htrue, hdraw⟩ :=
      hdrew.faithful hstart hfresh hempty hrun (List.subset_append_left ..) (List.subset_append_left ..)
    obtain ⟨coldResolution, coldEngine, hcoldResolved, hcoldThemes, hcoldParser, hcoldTrue, hcoldDraw⟩ :=
      hcoldDrew.faithful hcoldStart hcoldFresh hempty hcoldRun (List.subset_append_right ..)
        (List.subset_append_right ..)
    rw [hsame] at hresolved hdraw
    obtain rfl := hresolved.unique hsteady hcoldResolved
    refine draw_unique (hthemes.trans hcoldThemes.symm) (hparser.trans hcoldParser.symm) ?_ hdraw hcoldDraw
    intro grammar twin hfind hcoldFind
    exact meaning_unique hconsistent hlasting (htrue _ _ hfind) (hcoldTrue _ _ hcoldFind)

end Runs

/-- Suppliers that always answer the same are steady. -/
theorem steady_of_fixed {replied : List Reply} (h : ∀ reply ∈ replied, ∃ answer prompt,
    reply.language.supplier = some (.fixed (.ok answer) prompt) ∧ reply.answer = .ok answer) :
    Steady replied := by
  intro reply hreply other hother bundle twin hsame hbundle htwin
  obtain ⟨answer, prompt, hfixed, hanswer⟩ := h reply hreply
  obtain ⟨again, prompt, hrefixed, hagain⟩ := h other hother
  rw [hsame, hrefixed] at hfixed
  obtain ⟨hanswers, -⟩ := Supplier.fixed.inj (Option.some.inj hfixed)
  obtain rfl := Except.ok.inj (hanswer.symm.trans hbundle)
  obtain rfl := Except.ok.inj (hagain.symm.trans htwin)
  exact (Except.ok.inj hanswers).symm

/-- A highlighter whose parser gives every code one node, which bears the name of the parser's tables. -/
def naming : Highlighter :=
  ⟨.empty, [.cssVariables], fun grammar _ => some ⟨⟨grammar.parser, true, 0, 1, 0, 0, none⟩, .empty⟩⟩

/-- A language that has the given grammars. -/
def languageOf (key : String) (definitions : List GrammarDefinition) : Language :=
  ⟨key, key, some (.fixed (.ok (.sequence definitions)) true)⟩

/-- A drawing is asked for and answered, and takes some more steps. -/
def drawingOf (number : Nat) (key : String) (definitions : List GrammarDefinition) (steps : Nat) :
    List (Action Surroundings) :=
  .render 0 ⟨"a", some (languageOf key definitions), .empty, Theme.cssVariablesName⟩ ::
    resolving number definitions ++ List.replicate steps (.advance number ⟨.blank, []⟩)

/-- Definitions of three names, the last one with tables that cannot be driven. -/
def fewNames : List GrammarDefinition :=
  [⟨some "y", .linked ⟨"y", 14⟩⟩, ⟨some "x", .linked ⟨"comment", 14⟩⟩, ⟨some "z", .linked ⟨"z", 15⟩⟩]

/-- A drawing fails, another one loads `x`, and then a language is drawn that needs `y` and `x`. -/
def warmRun : List (Action Surroundings) :=
  drawingOf 0 "c" (fewNames.drop 2) 7 ++ drawingOf 1 "b" [fewNames[1]] 9 ++
    drawingOf 2 "a" (fewNames.take 2) 2

/-- The language that needs `y` and `x` is drawn alone. -/
def coldRun : List (Action Surroundings) :=
  drawingOf 0 "a" (fewNames.take 2) 11

/-- A studio with one engine that has nothing loaded. -/
def namingStudio : Studio Highlighter TableLoad :=
  initial [naming] [some 0] []

/-- What is asked for in the two runs. -/
def fewLanguages : List (String × List GrammarDefinition) :=
  [("c", fewNames.drop 2), ("b", [fewNames[1]]), ("a", fewNames.take 2), ("a", fewNames.take 2)]

/-- What is replied in the two runs. -/
def fewReplies : List Reply :=
  fewLanguages.map fun (key, definitions) => ⟨languageOf key definitions, .ok (.sequence definitions)⟩

/-- What is declared in the two runs is among few names. -/
theorem mem_fewNames {definition : GrammarDefinition} (h : Declared fewReplies definition) :
    definition ∈ fewNames := by
  obtain ⟨reply, hreply, resolution, hresolution, hmem⟩ := h
  obtain ⟨⟨key, definitions⟩, hlanguage, rfl⟩ := List.mem_map.mp hreply
  have hsubset : ∀ pair ∈ fewLanguages, ∀ definition ∈ pair.2,
      definition ∈ fewNames ∧ definition.name.isSome = true := by decide
  obtain ⟨_, hsame, hresolve⟩ := Language.resolve?_of_resolution hresolution
  obtain rfl := Except.ok.inj hsame
  rw [Resolution.definitions_of_named (fun other hother => (hsubset _ hlanguage other hother).2) hresolve]
    at hmem
  exact (hsubset _ hlanguage definition hmem).1

/-- The warm drawing has loaded nothing of its own, and is drawn as the cold one. -/
theorem markup_eq_of_cold_naming : ∃ studio coldStudio task coldTask run markup coldMarkup,
    namingStudio.run Highlighter.model warmRun = some studio ∧
      namingStudio.run Highlighter.model coldRun = some coldStudio ∧
      studio.tasks[2]? = some task ∧ coldStudio.tasks[0]? = some coldTask ∧
      task.stage.drawn? = some (run, some 0, markup) ∧
      coldTask.stage.drawn? = some (run, some 0, coldMarkup) ∧
      (loadEvents Highlighter.model namingStudio warmRun).map (·.task) = [0, 0, 1, 1] ∧
      markup = coldMarkup := by
  have hfresh : ∀ engine ∈ namingStudio.engines, engine = naming :=
    fun engine hmem => List.mem_singleton.mp hmem
  have hreplies : replies Highlighter.model namingStudio warmRun ++
      replies Highlighter.model namingStudio coldRun = fewReplies := rfl
  have hworlds : worlds (warmRun ++ coldRun) = List.replicate 37 ⟨.blank, []⟩ := rfl
  refine ⟨_, _, _, _, _, _, _, rfl, rfl, rfl, rfl, rfl, rfl, rfl, ?_⟩
  refine @markup_eq_of_cold naming namingStudio namingStudio _ _ warmRun coldRun 2 0 0 0 _ _ _ _ _ _ rfl rfl
    hfresh rfl rfl hfresh rfl ?_ ?_ ?_ rfl rfl rfl rfl rfl
  · rw [hreplies]
    refine steady_of_fixed fun reply hreply => ?_
    obtain ⟨⟨key, definitions⟩, -, rfl⟩ := List.mem_map.mp hreply
    exact ⟨_, _, rfl, rfl⟩
  · rw [hreplies]
    intro definition twin name hdefinition htwin hname hsame
    have hone : ∀ definition ∈ fewNames, ∀ twin ∈ fewNames, definition.name = twin.name →
        definition.source = twin.source := by decide
    exact hone _ (mem_fewNames hdefinition) _ (mem_fewNames htwin) (hname.trans hsame.symm)
  · rw [hworlds]
    intro around haround other hother
    rw [List.eq_of_mem_replicate haround, List.eq_of_mem_replicate hother]
    intro path symbol grammar twin hgrammar htwin
    exact Except.ok.inj (hgrammar.symm.trans htwin)

end Studio

end CodeMarkup
