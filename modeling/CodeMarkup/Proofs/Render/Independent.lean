import CodeMarkup.Proofs.Markup.Themed
import CodeMarkup.Proofs.Render.Addressed

/-!
# Themes and marks stay in their places

Two things can be chosen about a drawing that are not about its code: a theme, and lines to mark. Each of them changes
the markup in its places and nowhere else (`markup_independent`). What a theme adds is the subject of
`CodeMarkup.Proofs.Markup.Themed`. Which lines are to be marked makes no difference to what a renderer does before it
writes, so requests that differ in nothing else fail alike and leave it alike (`Renderer.render_lines`); and in what is
written, each line has its tokens from the code, the tree and the theme, and its mark from the set.
-/

namespace CodeMarkup

/-- The tokens of lines do not depend on their annotations. -/
theorem tokens_listLines (theme : Theme) (one other : Annotation) (number : Nat) (spans : List (List Span))
    (texts : List (List Char)) :
    (listLines theme one number spans texts).map ListedLine.tokens
      = (listLines theme other number spans texts).map ListedLine.tokens := by
  induction texts generalizing number spans with
  | nil => rfl
  | cons text rest ih =>
    rw [listLines, listLines, List.map_cons, List.map_cons, ih]
    rfl

/-- A line with its mark is not the same line without it. -/
theorem numberedLine_eq_iff {one other : Bool} (number : Nat) (tokens : List StyledToken) :
    numberedLine one number tokens = numberedLine other number tokens ↔ one = other := by
  refine ⟨fun h => ?_, fun h => h ▸ rfl⟩
  have hlength := congrArg List.length h
  simp only [numberedLine, lineHead, List.length_append] at hlength
  have hmarks : (if one then " highlighted-line".toList else []).length
      = (if other then " highlighted-line".toList else []).length := by omega
  revert hmarks
  cases one <;> cases other <;> decide

theorem getElem?_numberedLines (marked : Nat → Bool) (first : Nat) (lines : List (List StyledToken)) (index : Nat) :
    (numberedLines marked first lines)[index]?
      = lines[index]?.map (numberedLine (marked (first + index)) (first + index)) := by
  rw [numberedLines, List.getElem?_map, List.getElem?_zipIdx, Option.map_map]
  rfl

/-- What is done to the lines has no part in whether a query is answered, and in the listing that answers it only
the lines are up to it. -/
theorem Highlighter.list_annotate (highlighter : Highlighter) (query : Query) :
    (∃ fault, ∀ annotate, highlighter.list { query with annotate := annotate } = .error fault) ∨
    ∃ spans theme, ∀ annotate, highlighter.list { query with annotate := annotate }
      = .ok (.ofCode query.code.toList spans theme annotate) := by
  simp only [list]
  rcases highlighter.table.find? query.grammar with _ | grammar
  · exact Or.inl ⟨_, fun _ => rfl⟩
  rcases highlighter.theme? query.theme with _ | theme
  · exact Or.inl ⟨_, fun _ => rfl⟩
  dsimp only
  rcases highlighter.parser grammar query.code with _ | tree
  · exact Or.inl ⟨_, fun _ => rfl⟩
  · exact Or.inr ⟨_, _, fun _ => rfl⟩

/-- **Requests for the same in colour that differ in the lines to mark** all fail in one way, or all are drawn from one
code with one set of spans under one theme. They leave the renderer alike. -/
theorem Renderer.render_lines {request : Request} {language : Language}
    (hlanguage : request.highlighted? = some language) (renderer : Renderer) :
    (∃ fault after, ∀ lines, render { request with lines := lines } renderer = .error fault after) ∨
    ∃ spans theme after, ∀ lines : LineSet, render { request with lines := lines } renderer
      = .ok (Listing.ofCode request.code.toList spans theme lines.annotation).markup after := by
  have hsame : ∀ lines, Request.highlighted? { request with lines := lines } = some language :=
    fun _ => hlanguage
  have hget : ∀ loaded : Renderer, (get : RenderM Renderer) loaded = .ok loaded loaded := fun _ => rfl
  simp only [render, hsame, bind, EStateM.bind]
  rcases resolve language renderer with ⟨resolution, supplied⟩ | ⟨fault, supplied⟩
  · dsimp only
    rcases ensureLoaded resolution supplied with ⟨-, loaded⟩ | ⟨fault, loaded⟩
    · simp only [hget]
      rcases loaded.highlighter.list_annotate (request.query resolution.primary) with
        ⟨fault, hfails⟩ | ⟨spans, theme, hlists⟩
      · refine Or.inl ⟨fault, loaded, fun lines => ?_⟩
        have hdraw : loaded.highlighter.draw (Request.query { request with lines := lines } resolution.primary)
            = .error fault := congrArg (Except.map Listing.markup) (hfails lines.annotation)
        rw [hdraw]
        rfl
      · refine Or.inr ⟨spans, theme, loaded, fun lines => ?_⟩
        have hdraw : loaded.highlighter.draw (Request.query { request with lines := lines } resolution.primary)
            = .ok (Listing.ofCode request.code.toList spans theme lines.annotation).markup :=
          congrArg (Except.map Listing.markup) (hlists lines.annotation)
        rw [hdraw]
        rfl
    · exact Or.inl ⟨fault, loaded, fun _ => rfl⟩
  · exact Or.inl ⟨fault, supplied, fun _ => rfl⟩

/-- **A theme and the lines to mark change the markup in their places and nowhere else.** The block of a code with some
spans and annotations is one template, whose holes each theme fills in with its name and its styles; so under two
themes that take names from the page it is the same markup once these are erased. And a request in colour is answered
alike whichever lines are to be marked: with the same fault, or with the same lines one for one, of which exactly those
that lie in one set and not in the other have the mark in one markup and lack it in the other. -/
theorem markup_independent :
    (∀ (code : List Char) (spans : List (List Span)) (annotate : Annotation),
      (∀ theme, (Listing.ofCode code spans theme annotate).markup.toList
        = (blockTemplate code spans annotate).flatMap (Stretch.written theme)) ∧
      ∀ one other : Theme, one.Named → other.Named →
        eraseThemed (Listing.ofCode code spans one annotate).markup
          = eraseThemed (Listing.ofCode code spans other annotate).markup) ∧
    ∀ (request : Request) (language : Language) (renderer : Renderer), request.highlighted? = some language →
      ∀ one other : LineSet,
        (∃ fault after, Renderer.render { request with lines := one } renderer = .error fault after ∧
          Renderer.render { request with lines := other } renderer = .error fault after) ∨
        ∃ (theme : Theme) (lines : List (List StyledToken)) (first second : String) (after : Renderer),
          Renderer.render { request with lines := one } renderer = .ok first after ∧
          Renderer.render { request with lines := other } renderer = .ok second after ∧
          first.toList = theme.blockOpening ++ Text.join '\n' (numberedLines one.contains 1 lines)
            ++ Listing.closing ∧
          second.toList = theme.blockOpening ++ Text.join '\n' (numberedLines other.contains 1 lines)
            ++ Listing.closing ∧
          lines.length = request.code.toList.count '\n' + 1 ∧
          ∀ index tokens, lines[index]? = some tokens →
            (numberedLines one.contains 1 lines)[index]?
              = some (numberedLine (one.contains (1 + index)) (1 + index) tokens) ∧
            (numberedLines other.contains 1 lines)[index]?
              = some (numberedLine (other.contains (1 + index)) (1 + index) tokens) ∧
            (numberedLine (one.contains (1 + index)) (1 + index) tokens
                = numberedLine (other.contains (1 + index)) (1 + index) tokens ↔
              one.contains (1 + index) = other.contains (1 + index)) := by
  refine ⟨fun code spans annotate => ⟨fun theme => markup_ofCode_template theme code spans annotate,
    fun one other hone hother => eraseThemed_ofCode hone hother code spans annotate⟩, ?_⟩
  intro request language renderer hlanguage one other
  rcases Renderer.render_lines hlanguage renderer with ⟨fault, after, hfails⟩ | ⟨spans, theme, after, hdraws⟩
  · exact Or.inl ⟨fault, after, hfails one, hfails other⟩
  · have htokens : (Listing.ofCode request.code.toList spans theme other.annotation).lines.map ListedLine.tokens
        = (Listing.ofCode request.code.toList spans theme one.annotation).lines.map ListedLine.tokens :=
      tokens_listLines theme _ _ 1 spans _
    refine Or.inr ⟨theme, _, _, _, after, hdraws one, hdraws other, markup_ofCode_numbered .., ?_, ?_, ?_⟩
    · rw [markup_ofCode_numbered, htokens]
    · rw [List.length_map, Listing.length_lines_ofCode]
    · intro index tokens hline
      refine ⟨?_, ?_, numberedLine_eq_iff _ _⟩
      all_goals rw [getElem?_numberedLines, hline, Option.map_some]

/-- All themes in stock give the same markup of two lines once their names and styles are erased. Whether the second line
is to be marked decides about its mark and about nothing else. -/
theorem markup_independent_element :
    (∀ one ∈ Theme.builtin, ∀ other ∈ Theme.builtin,
      eraseThemed (Listing.ofCode "<b>\n".toList [[⟨0, 1, .operator⟩], []] one (LineSet.annotation ⟨[⟨2, 2⟩]⟩)).markup
        = eraseThemed
          (Listing.ofCode "<b>\n".toList [[⟨0, 1, .operator⟩], []] other (LineSet.annotation ⟨[⟨2, 2⟩]⟩)).markup) ∧
    ∃ (theme : Theme) (first second : List StyledToken) (after : Renderer), ∀ marked, Renderer.render
        { elementRequest with lines := if marked then ⟨[⟨2, 2⟩]⟩ else .empty } (elementRenderer .empty)
      = .ok (String.ofList (theme.blockOpening
        ++ (numberedLine false 1 first ++ '\n' :: numberedLine marked 2 second) ++ Listing.closing)) after := by
  refine ⟨fun one hone other hother => ?_, ?_⟩
  · exact (markup_independent.1 _ _ _).2 one other (named_of_mem_builtin one hone) (named_of_mem_builtin other hother)
  have hresolve : Renderer.resolve elementLanguage (elementRenderer .empty)
      = .ok ⟨[⟨some "html", .linked elementGrammar⟩], "html"⟩ (elementRenderer .empty) := rfl
  have hdrawn := @render_of_drawn { elementRequest with lines := ⟨[⟨2, 2⟩]⟩ } _ _ _ _ _
    elementGrammar Theme.cssVariables _ rfl hresolve ensureLoaded_element rfl rfl rfl
  rcases markup_independent.2 elementRequest elementLanguage (elementRenderer .empty) rfl ⟨[⟨2, 2⟩]⟩ .empty with
    ⟨fault, after, hfails, -⟩ | ⟨theme, lines, first, second, after, hone, hother, hfirst, hsecond, hcount, -⟩
  · cases hdrawn.symm.trans hfails
  · have htwo : lines.length = 2 := hcount
    obtain ⟨top, bottom, rfl⟩ := List.length_eq_two.mp htwo
    refine ⟨theme, top, bottom, after, fun marked => ?_⟩
    cases marked with
    | true =>
      refine hone.trans (congrArg (EStateM.Result.ok · after) ?_)
      exact String.ofList_toList.symm.trans (congrArg String.ofList hfirst)
    | false =>
      refine hother.trans (congrArg (EStateM.Result.ok · after) ?_)
      exact String.ofList_toList.symm.trans (congrArg String.ofList hsecond)

end CodeMarkup
