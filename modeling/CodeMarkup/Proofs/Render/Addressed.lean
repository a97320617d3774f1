import CodeMarkup.Proofs.LineSet.Covered
import CodeMarkup.Proofs.Markup.Numbered
import CodeMarkup.Render.Renderer

/-!
# Addressed lines

Whoever has written a line list and asks a renderer for some code in colour gets every line of the code under
its number, and marked if the list asks for it (`addressed_of_drawn`). Between the list as it was written and
the markup lie the reading of the list, the set of lines, the numbering of the listing and the writing of its
attributes; what the list says about lines that the code does not have is lost on the way without a trace.

A line of a markup is **addressed** by its opening tag: `Addressed` says that the block is made of such lines
alone, and that looking for their tags finds them.
-/

namespace CodeMarkup

open LineSpec (Covered)

/-- **The lines of a code can be addressed in a markup**, as a line list asks for. -/
structure Addressed (spec : String) (code : List Char) (theme : Theme) (markup : String) : Prop where
  /-- the block has one numbered line for each line of the code, in order, with its text -/
  block : ∃ lines : List (List StyledToken),
    markup.toList = theme.blockOpening ++ Text.join '\n' (numberedLines (Covered spec ·) 1 lines)
        ++ "</code></pre>".toList ∧
      lines.length = code.count '\n' + 1 ∧
      lines.map (·.flatMap StyledToken.text) = (Text.lines code).map Text.withoutReturn ∧
      ∀ tokens ∈ lines, ∀ token ∈ tokens, ∃ kind, token.style = theme.style? kind
  /-- nothing else in the block opens like a line, unless the theme brings tags of its own -/
  heads : theme.Tagless → lineHeads markup.toList
    = (List.range' 1 (code.count '\n' + 1)).map fun number => lineHead (Covered spec number) number

/-- A listing whose lines are those of a line list is addressed. -/
theorem addressed_ofCode {spec : String} {lines : LineSet} (h : LineSet.ofSpec spec = .ok lines)
    (code : List Char) (spans : List (List Span)) (theme : Theme) :
    Addressed spec code theme (Listing.ofCode code spans theme lines.annotation).markup := by
  have hmarked : lines.contains = fun number => decide (Covered spec number) :=
    funext fun number => Bool.eq_iff_iff.mpr ((LineSet.contains_ofSpec_iff h number).trans decide_eq_true_iff.symm)
  constructor
  · have hblock := markup_ofCode_numbered code spans theme lines
    rw [hmarked] at hblock
    refine ⟨_, hblock, ?_, ?_, ?_⟩
    · rw [List.length_map, Listing.length_lines_ofCode]
    · rw [List.map_map]
      exact text_listLines theme lines.annotation 1 spans (Text.lines code)
    · intro tokens htokens token htoken
      obtain ⟨line, hline, rfl⟩ := List.mem_map.mp htokens
      exact style_listLines hline htoken
  · intro htheme
    have hheads := lineHeads_ofCode_numbered code spans htheme lines
    rw [hmarked] at hheads
    exact hheads

section Rendering

variable {request : Request} {renderer supplied loaded : Renderer} {language : Language}
  {resolution : Resolution} {grammar : Grammar} {theme : Theme} {tree : Tree}

/-- Code in colour is the listing of its tree, once its grammars are loaded. -/
theorem render_of_drawn (hlanguage : request.highlighted? = some language)
    (hresolve : Renderer.resolve language renderer = .ok resolution supplied)
    (hload : Renderer.ensureLoaded resolution supplied = .ok () loaded)
    (hgrammar : loaded.highlighter.table.find? (renderName resolution.primary) = some grammar)
    (htheme : loaded.highlighter.theme? request.theme = some theme)
    (htree : loaded.highlighter.parser grammar request.code = some tree) :
    Renderer.render request renderer = .ok (Listing.ofCode request.code.toList
      (highlight tree request.code.toList) theme request.lines.annotation).markup loaded := by
  have hlist : loaded.highlighter.list (request.query resolution.primary)
      = .ok (.ofCode request.code.toList (highlight tree request.code.toList) theme
        request.lines.annotation) := by
    simp only [Highlighter.list, Request.query, hgrammar, htheme, htree]
  have hdraw : loaded.highlighter.draw (request.query resolution.primary)
      = .ok (Listing.ofCode request.code.toList (highlight tree request.code.toList) theme
        request.lines.annotation).markup := by
    rw [Highlighter.draw, hlist]
    rfl
  have hget : (get : RenderM Renderer) loaded = .ok loaded loaded := rfl
  unfold Renderer.render
  rw [hlanguage]
  simp only [bind, EStateM.bind, hresolve, hload, hget, hdraw]
  rfl

/-- **Lines are addressed end to end.** A request for some code in colour, whose lines were read from a line
list, is answered with a markup in which every line of the code has its number and is marked if an item of the
list covers it. Another list that covers the same lines of the code is answered with the same markup, whatever
lines it covers beyond the last. -/
theorem addressed_of_drawn {spec : String} (hspec : LineSet.ofSpec spec = .ok request.lines)
    (hlanguage : request.highlighted? = some language)
    (hresolve : Renderer.resolve language renderer = .ok resolution supplied)
    (hload : Renderer.ensureLoaded resolution supplied = .ok () loaded)
    (hgrammar : loaded.highlighter.table.find? (renderName resolution.primary) = some grammar)
    (htheme : loaded.highlighter.theme? request.theme = some theme)
    (htree : loaded.highlighter.parser grammar request.code = some tree) :
    ∃ markup, Renderer.render request renderer = .ok markup loaded ∧
      Addressed spec request.code.toList theme markup ∧
      ∀ other lines, LineSet.ofSpec other = .ok lines →
        (∀ number, 1 ≤ number → number ≤ request.code.toList.count '\n' + 1 →
          (Covered other number ↔ Covered spec number)) →
        Renderer.render { request with lines := lines } renderer = .ok markup loaded := by
  refine ⟨_, render_of_drawn hlanguage hresolve hload hgrammar htheme htree, addressed_ofCode hspec _ _ _, ?_⟩
  intro other lines hother hsame
  have hlines : ∀ number, 1 ≤ number → number ≤ request.code.toList.count '\n' + 1 →
      lines.contains number = request.lines.contains number := by
    intro number hfirst hlast
    rw [Bool.eq_iff_iff, LineSet.contains_ofSpec_iff hother, LineSet.contains_ofSpec_iff hspec]
    exact hsame number hfirst hlast
  -- the listing of the one set is the listing of the other, and the other is drawn like the one
  rw [← ofCode_annotation_congr hlines]
  exact @render_of_drawn { request with lines := lines } _ _ _ _ _ _ _ _ hlanguage hresolve hload hgrammar
    htheme htree

end Rendering

/-- The grammar of a language of elements. -/
def elementGrammar : Grammar := ⟨"html", Grammar.currentAbi⟩

/-- A language of elements. -/
def elementLanguage : Language :=
  ⟨"html", "HTML", some (.fixed (.ok (.single ⟨some "html", .linked elementGrammar⟩)) true)⟩

/-- A renderer with some grammars loaded, whose parser finds an element's name in the second byte of any code. -/
def elementRenderer (table : GrammarTable) : Renderer :=
  ⟨⟨⟨.blank, fun _ => none, [], 0, []⟩, "/g", .empty⟩, table, Theme.builtin, fun _ _ =>
    some ⟨⟨"document", true, 0, 3, 0, 1, none⟩, .plant ⟨"tag_name", true, 1, 2, 0, 0, none⟩ .empty .empty⟩⟩

/-- A line and the empty one after it, of which the second is to be marked. -/
def elementRequest : Request :=
  ⟨"<b\n", some elementLanguage, ⟨[⟨2, 2⟩, ⟨9, 9⟩]⟩, Theme.cssVariablesName⟩

/-- The language is loaded into a renderer that has nothing loaded. -/
theorem ensureLoaded_element :
    Renderer.ensureLoaded ⟨[⟨some "html", .linked elementGrammar⟩], "html"⟩ (elementRenderer .empty)
      = .ok () (elementRenderer ⟨[("html", elementGrammar)]⟩) := by
  have hload : GrammarTable.empty.load (elementRenderer .empty).surroundings
      [⟨some "html", .linked elementGrammar⟩] = (⟨[("html", elementGrammar)]⟩, .ok ()) := by
    simp [GrammarTable.load, GrammarTable.finish, GrammarTable.advance, TableLoad.ofList,
      GrammarTable.isLoaded, GrammarTable.find?, GrammarTable.empty, GrammarSource.prepare, Grammar.check,
      elementGrammar, Grammar.isCompatible, Grammar.currentAbi, Grammar.oldestAbi, GrammarTable.bindAll,
      GrammarTable.bind]
  have habsent : (elementRenderer .empty).highlighter.table.isLoaded "html" = false := rfl
  have htable : (elementRenderer .empty).highlighter.table = .empty := rfl
  simp only [Renderer.ensureLoaded, habsent]
  rw [htable, hload]
  rfl

/-- The line after a newline at the end is marked; one that the code does not have makes no difference. -/
theorem addressed_of_drawn_element : ∃ markup loaded,
    Renderer.render elementRequest (elementRenderer .empty) = .ok markup loaded ∧
      lineHeads markup.toList = ["<span class=\"line\" data-line=\"1\"".toList,
        "<span class=\"line highlighted-line\" data-line=\"2\"".toList] ∧
      Renderer.render { elementRequest with lines := ⟨[⟨2, 2⟩]⟩ } (elementRenderer .empty)
        = .ok markup loaded := by
  have hresolve : Renderer.resolve elementLanguage (elementRenderer .empty)
      = .ok ⟨[⟨some "html", .linked elementGrammar⟩], "html"⟩ (elementRenderer .empty) := rfl
  obtain ⟨markup, hrender, haddressed, hbeyond⟩ := @addressed_of_drawn elementRequest _ _ _ _ _
    elementGrammar Theme.cssVariables _ "9, 2-2" (by decide) rfl hresolve ensureLoaded_element rfl rfl rfl
  refine ⟨markup, _, hrender, ?_, hbeyond "2" _ (by decide) ?_⟩
  · rw [haddressed.heads (tagless_of_mem_builtin Theme.cssVariables (by simp [Theme.builtin]))]
    decide
  · intro number hfirst hlast
    obtain rfl | rfl : number = 1 ∨ number = 2 := by
      have hlines : elementRequest.code.toList.count '\n' + 1 = 2 := by decide
      omega
    · decide
    · decide

end CodeMarkup
