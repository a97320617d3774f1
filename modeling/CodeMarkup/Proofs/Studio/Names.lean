import CodeMarkup.Proofs.Grammar.Whole
import CodeMarkup.Proofs.Language.Chain
import CodeMarkup.Proofs.Studio.SharedEngine
import CodeMarkup.Render.Renderer

/-!
# One name for a primary grammar

The name of a primary grammar is settled when its language resolves, and whoever deals with the grammar afterwards goes
by that name. Resolving stamps it on the last definition (`Resolution.Stamped`), so the last definition is never the one
that a load refuses for want of a name (`GrammarTable.exists_unnamed_of_load`). A load that succeeds binds it, so the
next drawing in the language finds its grammar loaded and loads nothing: a renderer of its own only draws
(`Renderer.render_eq_renderLoaded`), and where many drawings share an engine none that is asked for afterwards loads
(`Studio.task_lt_of_loaded`).

All of it is put together in `Language.loads_once_resolved`.
-/

namespace CodeMarkup

/-! ## Resolving -/

/-- **A resolution of definitions, for a language of the given display name**: the definitions as they were, but that
the last has the name that it declares, or else the display name, and that this is the name of the primary grammar. -/
structure Resolution.Stamped (display : String) (definitions : List GrammarDefinition) (resolution : Resolution) :
    Prop where
  /-- there are as many definitions, with the same sources in the same order -/
  sources : resolution.definitions.map GrammarDefinition.source = definitions.map GrammarDefinition.source
  /-- those before the last are as they were -/
  front : resolution.definitions.dropLast = definitions.dropLast
  /-- the primary grammar has the name that the last one declares, or the display name if that one declares none -/
  primary : definitions.getLast?.map (·.name.getD display) = some resolution.primary
  /-- the last one has that name -/
  named : resolution.definitions.getLast?.map GrammarDefinition.name = some (some resolution.primary)

/-- A definition of a resolution that has no name comes before the last. -/
theorem Resolution.Stamped.mem_dropLast {display : String} {definitions : List GrammarDefinition}
    {resolution : Resolution} (h : resolution.Stamped display definitions) {definition : GrammarDefinition}
    (hmem : definition ∈ resolution.definitions) (hnone : definition.name = none) :
    definition ∈ definitions.dropLast := by
  obtain ⟨last, hlast, hname⟩ := Option.map_eq_some_iff.mp h.named
  obtain ⟨front, hconcat⟩ := List.getLast?_eq_some_iff.mp hlast
  have hfront := h.front
  rw [hconcat, List.dropLast_concat] at hfront
  rw [hconcat, List.mem_append, List.mem_singleton] at hmem
  rcases hmem with hbefore | rfl
  · exact hfront ▸ hbefore
  · rw [hnone] at hname
    cases hname

/-- **Resolving stamps the name of the primary grammar**, and changes nothing else. -/
theorem Language.stamped_of_resolution {language : Language} {bundle : Bundle} {resolution : Resolution}
    (h : language.resolution (.ok bundle) = .ok resolution) : resolution.Stamped language.name bundle.toList := by
  obtain ⟨_, hsame, hresolve⟩ := resolve?_of_resolution h
  obtain rfl := Except.ok.inj hsame
  rw [Bundle.resolve?] at hresolve
  rcases List.eq_nil_or_concat bundle.toList with hnil | ⟨front, last, hconcat⟩
  · rw [hnil] at hresolve
    cases hresolve
  · rw [List.concat_eq_append] at hconcat
    rw [hconcat] at hresolve ⊢
    rw [Resolution.ofList?_concat] at hresolve
    obtain rfl := Option.some.inj hresolve
    constructor <;> simp [GrammarDefinition.withName]

/-- A bundle resolves unless it is empty. -/
theorem Language.exists_resolution (language : Language) {bundle : Bundle} (h : bundle.toList ≠ []) :
    ∃ resolution, language.resolution (.ok bundle) = .ok resolution := by
  rcases hresolve : bundle.resolve? language.name with _ | resolution
  · exact absurd (Resolution.ofList?_eq_none_iff.mp hresolve) h
  · exact ⟨resolution, by simp only [Language.resolution, hresolve]⟩

/-- **A supplier yields the same names each time**, if it yields anything. -/
theorem Supplier.names_eq_of_fetch {supplier : Supplier} {site after other later : Site} {bundle twin : Bundle}
    (h : supplier.fetch site = .ok bundle after) (hother : supplier.fetch other = .ok twin later) :
    bundle.toList.map GrammarDefinition.name = twin.toList.map GrammarDefinition.name := by
  rcases supplier with ⟨_ | _, _⟩ | ⟨builtin, auto⟩
  · cases h
  · cases h
    cases hother
    rfl
  · rw [Site.names_of_supply h, Site.names_of_supply hother]

/-! ## Loads that are refused -/

/-- Preparing a source is never refused for want of a name. -/
theorem GrammarSource.prepare_ne_unnamed (around : Surroundings) (source : GrammarSource) :
    source.prepare around ≠ .error .unnamed := by
  have hcheck : ∀ grammar : Grammar, grammar.check ≠ .error .unnamed := by
    intro grammar h
    unfold Grammar.check at h
    split at h <;> cases h
  rcases source with grammar | ⟨path, symbol⟩
  · exact hcheck grammar
  · intro h
    rw [prepare] at h
    rcases hread : around.readLibrary path symbol with fault | grammar
    · rw [hread] at h
      obtain rfl := Except.error.inj h
      unfold Surroundings.readLibrary at hread
      split at hread
      · cases hread
      · cases hread
      · split at hread <;> cases hread
    · rw [hread] at h
      exact hcheck grammar h

namespace GrammarTable

variable {around : Surroundings} {table after : GrammarTable} {load : TableLoad} {definitions : List GrammarDefinition}
  {grammar : String}

/-- **A load that is refused for want of a name** has come to a definition of its list that has none. -/
theorem LoadStep.exists_unnamed (hstep : LoadStep around table load after (.ended (.error ⟨grammar, .unnamed⟩)))
    (hkeeps : table.Keeps definitions load) : ∃ definition ∈ definitions, definition.name = none := by
  cases hstep with
  | unprepared hprepare => exact absurd hprepare (GrammarSource.prepare_ne_unnamed around _)
  | @unnamed definition rest staged hname =>
    obtain ⟨done, hdone, -⟩ := hkeeps.passed
    refine ⟨definition, ?_, hname⟩
    rw [hdone]
    exact List.mem_append_right _ List.mem_cons_self

/-- The same of a load that nothing interrupts. -/
theorem exists_unnamed_of_load (h : table.load around definitions = (after, .error ⟨grammar, .unnamed⟩)) :
    ∃ definition ∈ definitions, definition.name = none := by
  obtain ⟨before, last, hledger, hstep⟩ := ended_of_finish LoadStep.keeps h (keeps_ofList table definitions)
  exact hstep.exists_unnamed hledger

end GrammarTable

/-! ## One renderer -/

namespace Renderer

variable {renderer later : Renderer} {language : Language} {resolution : Resolution} {request : Request}

/-- Draws a request in a language whose grammars are in place: the language is resolved, and nothing is loaded. -/
def renderLoaded (language : Language) (request : Request) : RenderM String := do
  let resolution ← resolve language
  let renderer ← get
  match renderer.highlighter.draw (request.query resolution.primary) with
  | .ok markup => return markup
  | .error fault => throw fault

theorem resolve_eq_of_fetch {supplier : Supplier} {bundle : Bundle} {site : Site}
    (hsupplier : language.supplier = some supplier) (hfetch : supplier.fetch renderer.site = .ok bundle site)
    (hresolution : language.resolution (.ok bundle) = .ok resolution) :
    resolve language renderer = .ok resolution { renderer with site := site } := by
  simp only [resolve, hsupplier, hfetch, hresolution]

/-- A language resolves by what its supplier yields. -/
theorem fetch_of_resolve {after : Renderer} (h : resolve language renderer = .ok resolution after) :
    ∃ supplier bundle site, language.supplier = some supplier ∧ supplier.fetch renderer.site = .ok bundle site ∧
      language.resolution (.ok bundle) = .ok resolution ∧ after = { renderer with site := site } := by
  unfold resolve at h
  rcases hsupplier : language.supplier with _ | supplier
  · rw [hsupplier] at h
    cases h
  · simp only [hsupplier] at h
    rcases hfetch : supplier.fetch renderer.site with ⟨bundle, site⟩ | ⟨fault, site⟩
    · simp only [hfetch] at h
      rcases hresolution : language.resolution (.ok bundle) with fault | found
      · simp only [hresolution] at h
        cases h
      · simp only [hresolution] at h
        cases h
        exact ⟨supplier, bundle, site, rfl, hfetch, hresolution, rfl⟩
    · simp only [hfetch, Language.resolution] at h
      cases h

/-- **A language has the same primary grammar each time it resolves.** -/
theorem primary_eq_of_resolve {after again : Renderer} {twin : Resolution}
    (h : resolve language renderer = .ok resolution after) (htwin : resolve language later = .ok twin again) :
    twin.primary = resolution.primary := by
  obtain ⟨supplier, bundle, _, hsupplier, hfetch, hresolution, -⟩ := fetch_of_resolve h
  obtain ⟨_, other, _, hsame, hrefetch, hrival, -⟩ := fetch_of_resolve htwin
  obtain rfl := Option.some.inj (hsupplier.symm.trans hsame)
  have hprimary : ∀ {bundle : Bundle} {resolution : Resolution}, language.resolution (.ok bundle) = .ok resolution →
      (bundle.toList.map GrammarDefinition.name).getLast?.map (·.getD language.name) = some resolution.primary := by
    intro bundle resolution hresolution
    rw [List.getLast?_map, Option.map_map]
    exact (Language.stamped_of_resolution hresolution).primary
  have hnames := hprimary hrival
  rw [← Supplier.names_eq_of_fetch hfetch hrefetch, hprimary hresolution] at hnames
  exact (Option.some.inj hnames).symm

/-- **A language whose primary grammar is loaded is drawn without a load.** -/
theorem render_eq_renderLoaded (hlanguage : request.highlighted? = some language)
    (hloaded : ∀ found after, resolve language later = .ok found after →
      later.highlighter.table.isLoaded found.primary = true) :
    render request later = renderLoaded language request later := by
  simp only [render, renderLoaded, hlanguage, bind, EStateM.bind]
  rcases hresolve : resolve language later with ⟨found, after⟩ | ⟨fault, after⟩
  · have hensure : ensureLoaded found after = .ok () after := by
      obtain ⟨_, _, _, -, -, -, rfl⟩ := fetch_of_resolve hresolve
      exact if_pos (hloaded found _ hresolve)
    dsimp only
    rcases hload : ensureLoaded found after with ⟨⟨⟩, loaded⟩ | ⟨_, loaded⟩
    · cases hload.symm.trans hensure
      rfl
    · cases hload.symm.trans hensure
  · rfl

end Renderer

/-! ## Many drawings -/

namespace Studio

variable {World Engine Load : Type} {model : EngineModel World Engine Load}
  {start middle studio : Studio Engine Load} {done more : List (Action World)} {event : LoadEvent}

/-- **Once a load has succeeded, no drawing that is asked for afterwards loads** its primary grammar with its engine, at
whatever station: all such loads are of tasks that were there already. -/
theorem task_lt_of_loaded (hmodel : model.Reliable) (hstart : start.tasks = [])
    (hdone : start.run model done = some middle) (hevent : event ∈ loadEvents model start done)
    (hsucceeds : event.Succeeds) (hmore : middle.run model more = some studio) :
    ∀ later ∈ loadEvents model middle more, later.engine = event.engine →
      later.resolution.primary = event.resolution.primary → later.task < middle.tasks.length := by
  refine @run_induction _ _ _ model middle (fun more _ => ∀ later ∈ loadEvents model middle more,
    later.engine = event.engine → later.resolution.primary = event.resolution.primary →
    later.task < middle.tasks.length) nofun ?_ more studio hmore
  intro more studio action next hmore ih hstep later hlater hengine hprimary
  rw [loadEvents_concat hmore hstep] at hlater
  rcases List.mem_append.mp hlater with hold | hnew
  · exact ih later hold hengine hprimary
  · rcases turn_of_step hstep with ⟨-, -, -, -, -, hnone⟩ | ⟨number, _, _, _, hturn, hsome⟩
    · rw [hnone] at hnew
      cases hnew
    · rw [hsome] at hnew
      have hload := Option.mem_toList.mp hnew
      obtain ⟨rfl, -⟩ := hturn.load.event_inv hload
      have hneeds := hturn.load.needs_of_event hload
      rw [hengine] at hneeds
      -- a task that has to load what has been loaded had to when the load succeeded
      obtain ⟨old, hold, -⟩ :=
        needs_of_needs hmodel hstart hdone hevent hsucceeds hmore hturn.moved hneeds hprimary
      exact (List.getElem?_eq_some_iff.mp hold).1

/-- **A load that a highlighter refuses for want of a name** has come to a definition of its list that has none,
whatever other loads have done meanwhile. -/
theorem exists_unnamed_of_loadEvents {start middle : Studio Highlighter TableLoad} {done : List (Action Surroundings)}
    (hstart : start.tasks = []) (hdone : start.run Highlighter.model done = some middle) {grammar : String}
    (hevent : event ∈ loadEvents Highlighter.model start done)
    (hrefused : event.result? = some (.error ⟨grammar, .unnamed⟩)) :
    ∃ definition ∈ event.resolution.definitions, definition.name = none := by
  refine @run_induction _ _ _ Highlighter.model start (fun done _ =>
    ∀ event ∈ loadEvents Highlighter.model start done, event.result? = some (.error ⟨grammar, .unnamed⟩) →
      ∃ definition ∈ event.resolution.definitions, definition.name = none) ?_ ?_ done middle hdone event hevent
    hrefused
  · exact nofun
  · intro done studio action next hrun ih hstep event hmem hrefused
    rw [loadEvents_concat hrun hstep] at hmem
    rcases List.mem_append.mp hmem with hold | hnew
    · exact ih event hold hrefused
    · have hstocked := (loads_run Highlighter.reliable_model hstart hrun).2.1
      rcases turn_of_step hstep with ⟨_, _, -, -, -, hnone⟩ | ⟨number, station, before, after, hturn, hsome⟩
      · rw [hnone] at hnew
        cases hnew
      · rw [hsome] at hnew
        have hended := Option.mem_toList.mp hnew
        cases hturn.load with
        | work hbefore =>
          rw [Stage.loadEvent?_of_mustLoad hbefore] at hended
          cases hended
        | missing | load => cases hended
        | start =>
          obtain rfl := Option.some.inj hended
          cases hrefused
        | loaded hfound hload =>
          obtain rfl := Option.some.inj hended
          obtain rfl := Option.some.inj hrefused
          have hunderway := hstocked.underway hturn.moved rfl hfound
          exact (Highlighter.loadStep_of_advance hload).exists_unnamed (Highlighter.keeps_of_underway hunderway)

end Studio

/-! ## From its supplier to its next drawing -/

/-- **A primary grammar goes by one name**, from its supplier to the next drawing that needs it.

Whatever a language's supplier yields, unless it is nothing, the language resolves to it, with a name stamped on the
last definition at most. A load of the resolution into a table is refused for want of a name only if a definition before
the last has none, and when it succeeds the primary grammar is bound; whoever draws with what has become of that table
loads nothing for the language. The same is so where many drawings take their steps in between: what is refused is
refused for a definition before the last, and once a load has succeeded, whatever load of the grammar still begins or
ends with that engine is of a drawing that was asked for before. -/
theorem Language.loads_once_resolved {language : Language} {supplier : Supplier} {renderer : Renderer}
    {bundle : Bundle} {site : Site} (hsupplier : language.supplier = some supplier)
    (hfetch : supplier.fetch renderer.site = .ok bundle site) (hbundle : bundle.toList ≠ []) :
    ∃ resolution,
      Renderer.resolve language renderer = .ok resolution { renderer with site := site } ∧
      resolution.Stamped language.name bundle.toList ∧
      (∀ (around : Surroundings) (table after : GrammarTable),
        (∀ grammar, table.load around resolution.definitions = (after, .error ⟨grammar, .unnamed⟩) →
          ∃ definition ∈ bundle.toList.dropLast, definition.name = none) ∧
        (table.load around resolution.definitions = (after, .ok ()) →
          after.isLoaded resolution.primary = true ∧
          ∀ (request : Request) (later : Renderer), request.highlighted? = some language →
            after ≤ later.highlighter.table →
            Renderer.render request later = Renderer.renderLoaded language request later)) ∧
      ∀ (start middle : Studio Highlighter TableLoad) (done : List (Action Surroundings)) (event : LoadEvent),
        start.tasks = [] → start.run Highlighter.model done = some middle →
        event ∈ Studio.loadEvents Highlighter.model start done → event.resolution = resolution →
        (∀ grammar, event.result? = some (.error ⟨grammar, .unnamed⟩) →
          ∃ definition ∈ bundle.toList.dropLast, definition.name = none) ∧
        (event.Succeeds →
          (∀ engine, middle.engines[event.engine]? = some engine →
            engine.table.isLoaded resolution.primary = true) ∧
          ∀ more studio, middle.run Highlighter.model more = some studio →
            ∀ later ∈ Studio.loadEvents Highlighter.model middle more, later.engine = event.engine →
              later.resolution.primary = resolution.primary → later.task < middle.tasks.length) := by
  obtain ⟨resolution, hresolution⟩ := language.exists_resolution hbundle
  have hresolve := Renderer.resolve_eq_of_fetch hsupplier hfetch hresolution
  have hstamped := stamped_of_resolution hresolution
  have hprimary := primary_mem_declaredNames hresolution
  have hfront : (∃ definition ∈ resolution.definitions, definition.name = none) →
      ∃ definition ∈ bundle.toList.dropLast, definition.name = none :=
    fun ⟨definition, hmem, hnone⟩ => ⟨definition, hstamped.mem_dropLast hmem hnone, hnone⟩
  refine ⟨resolution, hresolve, hstamped, fun around table after => ⟨?refused, ?loaded⟩,
    fun start middle done event hstart hdone hevent hsame => ⟨?refusedAmong, ?loadedAmong⟩⟩
  case refused => exact fun grammar hload => hfront (GrammarTable.exists_unnamed_of_load hload)
  case loaded =>
    intro hload
    have hbound := GrammarTable.isLoaded_of_load hload hprimary
    refine ⟨hbound, fun request later hlanguage hgrown => ?_⟩
    refine Renderer.render_eq_renderLoaded hlanguage fun found supplied hfound => ?_
    rw [Renderer.primary_eq_of_resolve hresolve hfound]
    exact GrammarTable.isLoaded_of_le hgrown hbound
  case refusedAmong =>
    subst hsame
    exact fun grammar hrefused => hfront (Studio.exists_unnamed_of_loadEvents hstart hdone hevent hrefused)
  case loadedAmong =>
    subst hsame
    intro hsucceeds
    have hstocked := (Studio.loads_run Highlighter.reliable_model hstart hdone).2.1
    refine ⟨fun engine hengine => hstocked.loaded hevent hsucceeds hengine hprimary, fun more studio hmore => ?_⟩
    exact Studio.task_lt_of_loaded Highlighter.reliable_model hstart hdone hevent hsucceeds hmore

/-- A grammar that has a name, and one that has none. -/
def lispGrammars : List GrammarDefinition :=
  [⟨some "list", .linked ⟨"list", 14⟩⟩, ⟨none, .linked ⟨"lisp", 14⟩⟩]

/-- A language with those grammars, of which the one without a name is its own. -/
def lisp : Language :=
  ⟨"lisp", "Lisp", some (.fixed (.ok (.sequence lispGrammars)) true)⟩

/-- A renderer that has loaded nothing. -/
def freshRenderer : Renderer :=
  ⟨⟨⟨.blank, fun _ => none, [], 0, []⟩, "/g", .empty⟩, .ofParser fun _ _ => none⟩

/-- A drawing in the language is asked for, and goes on until it has checked for the primary grammar. -/
def lispDrawing (number : Nat) : List (Action Surroundings) :=
  .render 0 ⟨"", some lisp, .empty, ""⟩ :: Studio.resolving number lispGrammars

/-- The language's own grammar goes by the name of the language. One drawing loads it, and the next does not. -/
theorem Language.loads_once_resolved_lisp : ∃ resolution middle studio,
    Renderer.resolve lisp freshRenderer = .ok resolution freshRenderer ∧ resolution.primary = "Lisp" ∧
      declaredNames resolution.definitions = ["list", "Lisp"] ∧
      Studio.freshStudio.run Highlighter.model
        (lispDrawing 0 ++ List.replicate 8 (.advance 0 ⟨.blank, []⟩)) = some middle ∧
      middle.run Highlighter.model (lispDrawing 1) = some studio ∧
      ∀ later ∈ Studio.loadEvents Highlighter.model middle (lispDrawing 1), later.engine = 0 →
        later.resolution.primary = "Lisp" → later.task < 1 := by
  obtain ⟨resolution, hresolve, -, -, hamong⟩ := @Language.loads_once_resolved lisp _ freshRenderer
    (.sequence lispGrammars) _ rfl rfl (by decide)
  cases hresolve
  obtain ⟨-, hloaded⟩ := hamong Studio.freshStudio _
    (lispDrawing 0 ++ List.replicate 8 (.advance 0 ⟨.blank, []⟩)) ⟨0, 0, 0, _, some (.ok ())⟩ rfl rfl
    (List.mem_of_getElem? (i := 1) rfl) rfl
  exact ⟨_, _, _, rfl, rfl, rfl, rfl, rfl, (hloaded rfl).2 _ _ rfl⟩

end CodeMarkup
