import CodeMarkup.Proofs.Language.Chain
import CodeMarkup.Proofs.Studio.Dependencies
import CodeMarkup.Proofs.Studio.Replies

/-!
# Missing grammars

A drawing that goes ahead has found its primary grammar loaded, but the grammar that it asks its engine for may
be another one: what stands for TypeScript is drawn with the grammar of the JSX variant (`renderName`). With
any other primary grammar the two are one, so the engine has what it is asked for. With the built-in
languages it has it always, because nothing but a chain is ever loaded, and a chain has the grammar of the JSX
variant with that of TypeScript (`renderName_loaded`).

A language of another kind may bring a grammar under the name `typescript` alone, and then the JSX variant is
missing when the language is drawn (`typescript_without_tsx`).
-/

namespace CodeMarkup

variable {Load : Type}

/-- Why a call has failed. -/
def Ending.fault? : Ending → Option RenderFault
  | .failed _ fault => some fault
  | _ => none

/-- Why a call fails, once its drawing has. -/
def Stage.fault? : Stage Load → Option RenderFault
  | .running _ (.drawn _ (.error fault)) => some fault
  | .ended ending => ending.fault?
  | _ => none

/-- What a supplier answers at a site. -/
def Supplier.answer (supplier : Supplier) (site : Site) : Except FetchFault Bundle :=
  match supplier.fetch site with
  | .ok bundle _ => .ok bundle
  | .error fault _ => .error fault

/-- A reply is of a language of the built-in catalog, as its supplier answers at some site. -/
def Reply.IsBuiltin (reply : Reply) : Prop :=
  ∃ auto supplier site, reply.language ∈ (Catalog.builtin auto).languages ∧
    reply.language.supplier = some supplier ∧ supplier.answer site = reply.answer

/-- **What a built-in language resolves to is a chain.** -/
theorem Reply.IsBuiltin.chain {reply : Reply} {resolution : Resolution} (h : reply.IsBuiltin)
    (hresolution : reply.resolution = .ok resolution) : ∃ builtin : Builtin,
      declaredNames resolution.definitions = builtin.chain.map Builtin.grammarName := by
  obtain ⟨language, answer⟩ := reply
  obtain ⟨auto, supplier, site, hmem, hsupplier, rfl⟩ := h
  rcases Catalog.of_mem_builtin hmem with rfl | ⟨builtin, rfl⟩
  · cases hsupplier
  · obtain rfl := Option.some.inj hsupplier
    refine ⟨builtin, ?_⟩
    rcases hfetch : Site.supply auto builtin site with ⟨bundle, after⟩ | ⟨fault, after⟩
    · have hanswer : (Supplier.installed builtin auto).answer site = .ok bundle := by
        simp only [Supplier.answer, Supplier.fetch, hfetch]
      exact Language.declaredNames_of_supply hfetch (hanswer ▸ hresolution)
    · have hanswer : (Supplier.installed builtin auto).answer site = .error fault := by
        simp only [Supplier.answer, Supplier.fetch, hfetch]
      rw [Reply.resolution, hanswer] at hresolution
      cases hresolution

theorem Highlighter.isLoaded_of_empty {highlighter : Highlighter} (h : highlighter.table = .empty)
    (name : String) : model.isLoaded highlighter name = false := by
  change highlighter.table.isLoaded name = false
  rw [h]
  rfl

/-- An engine has no fault with the name of a grammar that is loaded. -/
theorem Highlighter.draw_ne_unknownGrammar {highlighter : Highlighter} {query : Query}
    (h : highlighter.table.isLoaded query.grammar = true) (name : String) :
    highlighter.draw query ≠ .error (.unknownGrammar name) := by
  obtain ⟨grammar, hfind⟩ := GrammarTable.isLoaded_iff.mp h
  simp only [draw, list, hfind]
  rcases highlighter.theme? query.theme with _ | theme
  · nofun
  · rcases highlighter.parser grammar query.code with _ | tree <;> nofun

namespace Studio

variable {start studio next : Studio Highlighter TableLoad} {number station : Nat}
  {actions before after : List (Action Surroundings)} {resolution : Resolution}

/-- **Whatever is loaded can be drawn with**, if all that was loaded was built in: the grammar that draws
what it stands for is loaded as well. -/
theorem renderName_loaded (hstart : start.tasks = [])
    (hempty : ∀ engine ∈ start.engines, engine.table = .empty)
    (hrun : start.run Highlighter.model actions = some studio)
    (hbuiltin : ∀ reply ∈ replies Highlighter.model start actions, reply.IsBuiltin)
    {engine : Highlighter} (hengine : engine ∈ studio.engines) {name : String}
    (hloaded : engine.table.isLoaded name = true) : engine.table.isLoaded (renderName name) = true := by
  obtain ⟨index, hindex⟩ := List.mem_iff_getElem?.mp hengine
  have hfurnished := furnished_run Highlighter.reliable_model Highlighter.frugal_model hstart
    (fun engine hmem name => Highlighter.isLoaded_of_empty (hempty engine hmem) name) hrun
  obtain ⟨-, hstocked, -⟩ := loads_run Highlighter.reliable_model hstart hrun
  -- the name was on the list of a load, and that list was a chain
  obtain ⟨event, hevent, hsucceeds, rfl, hname⟩ := hfurnished.loaded hindex hloaded
  obtain ⟨reply, hreply, hresolution⟩ := resolved_of_loadEvents hstart hrun hevent
  obtain ⟨builtin, hchain⟩ := (hbuiltin reply hreply).chain hresolution
  refine hstocked.loaded hevent hsucceeds hindex ?_
  rw [hchain] at hname ⊢
  exact Builtin.renderName_mem_chain hname

/-- A drawing that goes ahead finds the grammar that draws what its primary grammar stands for, if that is the
primary grammar itself, or if all that was loaded was built in. -/
theorem renderName_of_placed (hstart : start.tasks = [])
    (hempty : ∀ engine ∈ start.engines, engine.table = .empty)
    (hrun : start.run Highlighter.model actions = some studio)
    (hknown : resolution.primary ≠ "typescript" ∨
      ∀ reply ∈ replies Highlighter.model start actions, reply.IsBuiltin)
    {task : Task TableLoad} {index : Nat} {engine : Highlighter} (htask : studio.tasks[number]? = some task)
    (hplaced : task.stage.placed? = some (index, resolution))
    (hengine : studio.engines[index]? = some engine) :
    engine.table.isLoaded (renderName resolution.primary) = true := by
  have hfurnished := furnished_run Highlighter.reliable_model Highlighter.frugal_model hstart
    (fun engine hmem name => Highlighter.isLoaded_of_empty (hempty engine hmem) name) hrun
  have hprimary : engine.table.isLoaded resolution.primary = true :=
    hfurnished.placed htask hplaced hengine
  rcases hknown with hother | hbuiltin
  · rwa [renderName, if_neg hother]
  · exact renderName_loaded hstart hempty hrun hbuiltin (List.mem_of_getElem? hengine) hprimary

/-- **A drawing with its grammars in place**, and what becomes of it if the engine has them all. -/
inductive Stage.Equipped (resolution : Resolution) : Stage Load → Prop where
  /-- it is to draw -/
  | drawing {run : Run} {index : Nat} : Equipped resolution (.running run (.drawing index resolution))
  /-- it has drawn, and missed no grammar -/
  | drawn {run : Run} {engine : Option Nat} {result : Except RenderFault String}
      (hresult : ∀ name, result ≠ .error (.unknownGrammar name)) :
    Equipped resolution (.running run (.drawn engine result))
  /-- it is over, and missed no grammar -/
  | ended {ending : Ending} (hending : ∀ name, ending.fault? ≠ some (.unknownGrammar name)) :
    Equipped resolution (.ended ending)

theorem Stage.Equipped.fault?_ne {stage : Stage Load} (h : Stage.Equipped resolution stage)
    (name : String) : stage.fault? ≠ some (.unknownGrammar name) := by
  cases h with
  | drawing => nofun
  | @drawn run engine result hresult =>
    rcases result with fault | markup
    · exact fun hsame => hresult name (congrArg Except.error (Option.some.inj hsame))
    · nofun
  | ended hending => exact hending name

/-- A move of a drawing with its grammars in place misses none of them. -/
theorem Move.equipped {stage : Stage TableLoad}
    (hmove : Move Highlighter.model studio number station stage next)
    (hloaded : ∀ index engine, stage.placed? = some (index, resolution) →
      studio.engines[index]? = some engine → engine.table.isLoaded (renderName resolution.primary) = true)
    (h : Stage.Equipped resolution stage) :
    ∃ after, next.tasks = (studio.setStage number after).tasks ∧ Stage.Equipped resolution after := by
  cases h with
  | drawing =>
    cases hmove with
    | draw hengine =>
      exact ⟨_, rfl, .drawn (Highlighter.draw_ne_unknownGrammar (hloaded _ _ rfl hengine))⟩
  | drawn hresult =>
    cases hmove with
    | fail => exact ⟨_, rfl, .ended fun name hsame => hresult name (congrArg _ (Option.some.inj hsame))⟩
    | deliver | drop | keep | display => exact ⟨_, rfl, .ended nofun⟩
  | ended => cases hmove

/-- A drawing with its grammars in place misses none of them in the rest of the run, if its primary grammar
draws what it stands for, or if all that was loaded was built in. -/
theorem equipped_run {middle : Studio Highlighter TableLoad} (hstart : start.tasks = [])
    (hempty : ∀ engine ∈ start.engines, engine.table = .empty)
    (hbefore : start.run Highlighter.model before = some middle)
    (hafter : middle.run Highlighter.model after = some studio) {task : Task TableLoad}
    (htask : middle.tasks[number]? = some task) (hequipped : Stage.Equipped resolution task.stage)
    (hknown : resolution.primary ≠ "typescript" ∨
      ∀ reply ∈ replies Highlighter.model start (before ++ after), reply.IsBuiltin) :
    ∃ later, studio.tasks[number]? = some later ∧ Stage.Equipped resolution later.stage := by
  refine @run_induction _ _ _ Highlighter.model middle (fun after studio =>
    (resolution.primary ≠ "typescript" ∨
      ∀ reply ∈ replies Highlighter.model start (before ++ after), reply.IsBuiltin) →
    ∃ later, studio.tasks[number]? = some later ∧ Stage.Equipped resolution later.stage) ?_ ?_ after
    studio hafter hknown
  · exact fun _ => ⟨task, htask, hequipped⟩
  · intro done studio action next hdone ih hstep hknown
    have hrun : start.run Highlighter.model (before ++ done) = some studio := by
      rw [run_append, hbefore, Option.bind_some, hdone]
    have hknown : resolution.primary ≠ "typescript" ∨
        ∀ reply ∈ replies Highlighter.model start (before ++ done), reply.IsBuiltin := by
      rw [← List.append_assoc, replies_concat hrun hstep] at hknown
      exact hknown.imp_right fun hall reply hmem => hall reply (List.mem_append_left _ hmem)
    obtain ⟨task, htask, hequipped⟩ := ih hknown
    rcases step_inv hstep with ⟨_, _, _, -, -, rfl⟩ | ⟨_, _, -, -, rfl⟩ |
      ⟨mover, ⟨place, stage⟩, -, hmoved, hmove⟩
    · exact ⟨task, getElem?_addTask_of_some htask, hequipped⟩
    · exact ⟨task, getElem?_addTask_of_some htask, hequipped⟩
    · by_cases hmine : mover = number
      · subst hmine
        obtain rfl := Option.some.inj (hmoved.symm.trans htask)
        obtain ⟨after, htasks, hafter⟩ := hmove.equipped
          (fun _ _ => renderName_of_placed hstart hempty hrun hknown hmoved) hequipped
        exact ⟨_, getElem?_setStage_self htasks hmoved, hafter⟩
      · obtain ⟨after, htasks, -⟩ := hmove.loadMove
        exact ⟨task, (getElem?_setStage_ne htasks hmine).trans htask, hequipped⟩

/-- **A drawing whose grammars have resolved and loaded misses no grammar**, in whatever order drawings of
whatever languages take their steps with engines that had nothing loaded at first.

If its primary grammar is not the one called `typescript`, its engine never answers that it has no grammar of
the name it is asked for. If all languages are built in, it never answers so to any drawing: with `typescript`
it has always `tsx`. -/
theorem grammars_known_of_drawing (hstart : start.tasks = [])
    (hempty : ∀ engine ∈ start.engines, engine.table = .empty)
    {middle : Studio Highlighter TableLoad} (hbefore : start.run Highlighter.model before = some middle)
    (hafter : middle.run Highlighter.model after = some studio) :
    (∀ (number index : Nat) (task later : Task TableLoad) (run : Run) (resolution : Resolution),
      middle.tasks[number]? = some task → task.stage = .running run (.drawing index resolution) →
      studio.tasks[number]? = some later →
      (resolution.primary ≠ "typescript" ∨
        ∀ reply ∈ replies Highlighter.model start (before ++ after), reply.IsBuiltin) →
      ∀ name, later.stage.fault? ≠ some (.unknownGrammar name)) ∧
    ((∀ reply ∈ replies Highlighter.model start (before ++ after), reply.IsBuiltin) →
      ∀ engine ∈ studio.engines, engine.table.isLoaded "typescript" = true →
        engine.table.isLoaded "tsx" = true) := by
  constructor
  · intro number index task later run resolution htask hdrawing hlater hknown
    have hequipped : Stage.Equipped resolution task.stage := hdrawing ▸ .drawing
    obtain ⟨same, hsame, hequipped⟩ := equipped_run hstart hempty hbefore hafter htask hequipped hknown
    obtain rfl := Option.some.inj (hlater.symm.trans hsame)
    exact hequipped.fault?_ne
  · intro hbuiltin engine hengine hloaded
    have hrun : start.run Highlighter.model (before ++ after) = some studio := by
      rw [run_append, hbefore, Option.bind_some, hafter]
    exact renderName_loaded hstart hempty hrun hbuiltin hengine hloaded

/-- A station with a highlighter in which nothing is loaded, whose parser gives every code one node. -/
def parsingStudio : Studio Highlighter TableLoad :=
  initial [.ofParser fun _ _ => some ⟨⟨"program", true, 0, 0, 0, 0, none⟩, .empty⟩] [some 0] []

/-- A directory with the compiled grammars that TypeScript needs. -/
def typescriptSite : Site :=
  let library (name : String) : Content :=
    .library [(GrammarDefinition.symbolOf name, ⟨name, Grammar.currentAbi⟩)]
  let disk : Disk := ⟨[(["g"], .directory), (["g", "libtsx.so"], .file (library "tsx")),
    (["g", "libtypescript.so"], .file (library "typescript"))]⟩
  ⟨⟨disk, fun _ => none, [], 0, []⟩, "/g", .empty⟩

/-- A drawing of built-in TypeScript looks up its engine, is answered, loads its grammars and goes ahead. -/
def drawingTypescript : List (Action Surroundings) :=
  let around : Surroundings := ⟨typescriptSite.host.disk, []⟩
  [.render 0 ⟨"", some (.ofBuiltin false .typeScript), .empty, Theme.cssVariablesName⟩,
    .advance 0 around, .answer 0 ((Supplier.installed .typeScript false).answer typescriptSite)] ++
    List.replicate 10 (.advance 0 around)

/-- TypeScript, supplied from a directory of compiled grammars, is drawn. -/
theorem grammars_known_of_drawing_typescript : ∃ middle studio task later run resolution,
    parsingStudio.run Highlighter.model drawingTypescript = some middle ∧
      middle.run Highlighter.model [.advance 0 ⟨.blank, []⟩] = some studio ∧
      middle.tasks[0]? = some task ∧ task.stage = .running run (.drawing 0 resolution) ∧
      resolution.primary = "typescript" ∧ studio.tasks[0]? = some later ∧
      (∃ markup, later.stage = .running run (.drawn (some 0) (.ok markup))) ∧
      (∀ name, later.stage.fault? ≠ some (.unknownGrammar name)) ∧
      ∀ engine ∈ studio.engines, engine.table.isLoaded "typescript" = true →
        engine.table.isLoaded "tsx" = true := by
  have hempty : ∀ engine ∈ parsingStudio.engines, engine.table = .empty := by
    intro engine hmem
    obtain rfl := List.mem_singleton.mp hmem
    rfl
  obtain ⟨hknown, hclosed⟩ := @grammars_known_of_drawing parsingStudio _ drawingTypescript
    [.advance 0 ⟨.blank, []⟩] rfl hempty _ rfl rfl
  have hbuiltin : ∀ reply ∈ replies Highlighter.model parsingStudio
      (drawingTypescript ++ [.advance 0 ⟨.blank, []⟩]), reply.IsBuiltin := by
    intro reply hmem
    obtain rfl := List.mem_singleton.mp hmem
    exact ⟨false, _, typescriptSite, List.mem_of_getElem? (i := 16) rfl, rfl, rfl⟩
  exact ⟨_, _, _, _, _, _, rfl, rfl, rfl, rfl, rfl, rfl, ⟨_, rfl⟩, hknown 0 0 _ _ _ _ rfl rfl rfl
    (Or.inr hbuiltin), hclosed hbuiltin⟩

/-- A language that brings a grammar under the name `typescript` alone. -/
def borrowingTypescript : List (Action Surroundings) :=
  let definitions : List GrammarDefinition := [⟨some "typescript", .linked ⟨"typescript", 14⟩⟩]
  asking "a" definitions :: resolving 0 definitions ++ List.replicate 8 (.advance 0 ⟨.blank, []⟩)

/-- **The JSX variant is missing** when a language is drawn that brings TypeScript without it. -/
theorem typescript_without_tsx : ∃ studio task,
    parsingStudio.run Highlighter.model borrowingTypescript = some studio ∧
      studio.tasks[0]? = some task ∧ task.stage.fault? = some (.unknownGrammar "tsx") :=
  ⟨_, _, rfl, rfl, rfl⟩

end Studio

end CodeMarkup
