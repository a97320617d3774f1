import CodeMarkup.Proofs.Grammar.Whole
import CodeMarkup.Proofs.Language.Chain
import CodeMarkup.Proofs.Render.Choice
import CodeMarkup.Proofs.Studio.Engine
import CodeMarkup.Render.Display

/-!
# Drawing for the first time

A renderer that has loaded nothing, asked for code in a language of the built-in catalog and a theme in stock, draws
it unless something is wrong with the grammars: they cannot be had, or they do not load (`ofGrammars_of_render`).
Nothing else can be wrong. Every language to highlight has a supplier; what it yields is the whole chain, so the
grammar that draws is loaded together with the primary one; every choice of a theme leads to one in stock; and a
table that was loaded can be driven, so the parser gives a tree for it.

A display shows what its renderer draws (`Display.change_of_differs`): with one drawing at a time none comes too
late.
-/

namespace CodeMarkup

/-! ## Catalogs -/

theorem Catalog.mem_of_get? {catalog : Catalog} {key : String} {language : Language}
    (h : catalog.get? key = some language) : language ∈ catalog.languages :=
  List.mem_of_find?_eq_some h

/-- The language of a file is an entry of the catalog, or not highlighted. -/
theorem Catalog.mem_or_eq_of_detect (catalog : Catalog) (path : PathBytes) :
    catalog.detect path = .plaintext ∨ catalog.detect path ∈ catalog.languages := by
  rw [detect]
  rcases hfound : (Builtin.ofPath? path).bind fun language => catalog.get? language.grammarName with _ | language
  · exact Or.inl rfl
  · obtain ⟨builtin, -, hget⟩ := Option.bind_eq_some_iff.mp hfound
    exact Or.inr (mem_of_get? hget)

/-! ## Faults -/

/-- **The grammars are at fault.** -/
inductive RenderFault.OfGrammars : RenderFault → Prop where
  /-- they cannot be had -/
  | fetch (language : String) (fault : FetchFault) : OfGrammars (.fetch language fault)
  /-- they do not load -/
  | load (failure : LoadFailure) : OfGrammars (.load failure)

/-- Whatever is wrong with an answer of a supplier, the grammars are at fault. -/
theorem Language.ofGrammars_of_resolution {language : Language} {answer : Except FetchFault Bundle}
    {fault : RenderFault} (h : language.resolution answer = .error fault) : fault.OfGrammars := by
  unfold resolution at h
  split at h
  · obtain rfl := Except.error.inj h
    exact .fetch _ _
  · split at h
    · obtain rfl := Except.error.inj h
      exact .fetch _ _
    · cases h

/-! ## Highlighters -/

/-- **A parser gives a tree for whatever can be driven.** -/
def Parser.Total (parser : Parser) : Prop :=
  ∀ grammar code, grammar.isCompatible = true → ∃ tree, parser grammar code = some tree

/-- A highlighter draws what it has a grammar and a theme for. -/
theorem Highlighter.draw_of_loaded {highlighter : Highlighter} {query : Query} {theme : Theme}
    (hparser : highlighter.parser.Total) (hfit : highlighter.table.TrueTo .fit)
    (hgrammar : highlighter.table.isLoaded query.grammar = true)
    (htheme : theme ∈ highlighter.themes) (hname : theme.name = query.theme) :
    ∃ markup, highlighter.draw query = .ok markup := by
  obtain ⟨grammar, hfind⟩ := Option.isSome_iff_exists.mp hgrammar
  have hstock : (highlighter.theme? query.theme).isSome = true :=
    List.find?_isSome.mpr ⟨theme, htheme, beq_iff_eq.mpr hname⟩
  obtain ⟨stocked, hstocked⟩ := Option.isSome_iff_exists.mp hstock
  obtain ⟨tree, htree⟩ := hparser grammar query.code (hfit _ _ hfind)
  have hlist : highlighter.list query = .ok (.ofCode query.code.toList (highlight tree query.code.toList)
      stocked query.annotate) := by
    simp only [list, hfind, hstocked, htree]
  exact ⟨_, congrArg (Except.map Listing.markup) hlist⟩

/-! ## Renderers -/

namespace Renderer

variable {renderer after : Renderer} {language : Language} {resolution : Resolution} {request : Request}
  {fault : RenderFault}

theorem ofGrammars_of_resolve (hsupplier : language.supplier.isSome = true)
    (h : resolve language renderer = .error fault after) : fault.OfGrammars := by
  unfold resolve at h
  split at h
  · rename_i hnone
    rw [hnone] at hsupplier
    cases hsupplier
  · dsimp only at h
    split at h
    · cases h
    · rename_i hresolution
      cases h
      exact Language.ofGrammars_of_resolution hresolution

theorem ofGrammars_of_ensureLoaded (h : ensureLoaded resolution renderer = .error fault after) :
    fault.OfGrammars := by
  unfold ensureLoaded at h
  dsimp only at h
  split at h
  · cases h
  · split at h
    · cases h
    · cases h
      exact .load _

/-- **A built-in language resolves to its chain**, of which its primary grammar is one. The highlighter has no
part in that. -/
theorem chain_of_resolve {auto : Bool} {builtin : Builtin}
    (h : resolve (.ofBuiltin auto builtin) renderer = .ok resolution after) :
    declaredNames resolution.definitions = builtin.chain.map Builtin.grammarName ∧
      resolution.primary ∈ declaredNames resolution.definitions ∧ after.highlighter = renderer.highlighter := by
  simp only [resolve, Language.ofBuiltin, Supplier.fetch] at h
  rcases hsupply : Site.supply auto builtin renderer.site with ⟨bundle, site⟩ | ⟨reason, site⟩
  · simp only [hsupply] at h
    split at h
    · rename_i hresolution
      cases h
      exact ⟨Language.declaredNames_of_supply hsupply hresolution,
        Language.primary_mem_declaredNames hresolution, rfl⟩
    · cases h
  · simp only [hsupply, Language.resolution] at h
    cases h

/-- **What a renderer that has loaded nothing loads**: every name of the list, and nothing that cannot be driven. -/
theorem loaded_of_ensureLoaded (hempty : renderer.highlighter.table = .empty)
    (h : ensureLoaded resolution renderer = .ok () after) :
    (∀ name ∈ declaredNames resolution.definitions, after.highlighter.table.isLoaded name = true) ∧
      after.highlighter.table.TrueTo .fit ∧ after.highlighter.themes = renderer.highlighter.themes ∧
      after.highlighter.parser = renderer.highlighter.parser := by
  unfold ensureLoaded at h
  dsimp only at h
  split at h
  · rename_i hloaded
    rw [hempty] at hloaded
    cases hloaded
  · rcases hload : renderer.highlighter.table.load renderer.surroundings resolution.definitions with
      ⟨table, _ | _⟩
    · rw [hload] at h
      cases h
    · rw [hload] at h
      cases h
      have hfit := GrammarTable.fit_of_load hload (hempty ▸ GrammarTable.empty_trueTo .fit)
      exact ⟨fun name => GrammarTable.isLoaded_of_load hload, hfit, rfl, rfl⟩

/-- **If a first drawing fails, the grammars are at fault.** -/
theorem ofGrammars_of_render {auto : Bool} (hempty : renderer.highlighter.table = .empty)
    (hparser : renderer.highlighter.parser.Total) (hlanguage : request.language = some language)
    (hbuiltin : language = .plaintext ∨ ∃ builtin, language = .ofBuiltin auto builtin)
    (htheme : ∃ theme ∈ renderer.highlighter.themes, theme.name = request.theme)
    (h : render request renderer = .error fault after) : fault.OfGrammars := by
  rcases hbuiltin with rfl | ⟨builtin, rfl⟩
  · have hplain : request.highlighted? = none := by
      rw [Request.highlighted?, hlanguage]
      rfl
    simp only [render, hplain] at h
    cases h
  · rcases hhighlighted : request.highlighted? with _ | other
    · simp only [render, hhighlighted] at h
      cases h
    · have hsame := (Option.filter_eq_some_iff.mp hhighlighted).1
      obtain rfl := Option.some.inj (hlanguage.symm.trans hsame)
      simp only [render, hhighlighted] at h
      rcases failed_of_bind h with hresolve | ⟨resolution, supplied, hresolve, h⟩
      · exact ofGrammars_of_resolve rfl hresolve
      rcases failed_of_bind h with hload | ⟨_, loaded, hload, h⟩
      · exact ofGrammars_of_ensureLoaded hload
      -- what remains is to draw, and everything is there for that
      obtain ⟨hchain, hprimary, hhighlighter⟩ := chain_of_resolve hresolve
      obtain ⟨hnames, hfit, hthemes, hsameParser⟩ := loaded_of_ensureLoaded (hhighlighter ▸ hempty) hload
      rw [hhighlighter] at hthemes hsameParser
      have hgrammar : renderName resolution.primary ∈ declaredNames resolution.definitions := by
        rw [hchain] at hprimary ⊢
        exact Builtin.renderName_mem_chain hprimary
      obtain ⟨theme, hmem, hname⟩ := htheme
      obtain ⟨markup, hdraw⟩ := @Highlighter.draw_of_loaded loaded.highlighter
        (request.query resolution.primary) theme (hsameParser ▸ hparser) hfit (hnames _ hgrammar)
        (hthemes ▸ hmem) hname
      rw [get_bind_apply, hdraw] at h
      cases h

end Renderer

/-! ## Displays -/

/-- **A change that makes a difference is drawn, and shown if that goes well.** Otherwise what is shown stays. -/
theorem Display.change_of_differs {display : Display} {change : Change}
    (hdiffers : (change.apply display.request).same display.request = false) :
    Display.change change display =
      match Renderer.render (change.apply display.request) display.renderer with
      | .ok markup renderer =>
        .ok .applied ⟨renderer, change.apply display.request, display.generation + 1, markup⟩
      | .error fault renderer =>
        .error fault ⟨renderer, change.apply display.request, display.generation + 1, display.shown⟩ := by
  have hchange : Display.change change display
      = draw (display.generation + 1) (display.stamp (change.apply display.request)) := by
    simp only [Display.change, hdiffers]
    rfl
  rw [hchange, draw, stamp]
  rcases Renderer.render (change.apply display.request) display.renderer with ⟨markup, renderer⟩ |
    ⟨fault, renderer⟩
  · simp only [if_true]
  · rfl

end CodeMarkup
