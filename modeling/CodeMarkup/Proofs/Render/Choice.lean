import CodeMarkup.Render.Highlighter

/-!
# Choosing a theme

What a choice stands for is said by tables that know nothing of each other: the families, the listed names, the theme of
each name, and the name that each theme has itself. They agree: the listed names are those that have a theme
(`isSome_builtin?_iff`), a theme has the name that it is found under (`name_of_builtin?`), each variant of a family is
listed, and no family is. So a choice always stands for a listed name (`resolve_mem_builtinNames`), which stands for
itself, and a highlighter has a theme of that name in stock, whatever was added to its stock (`resolve_in_stock`).
-/

namespace CodeMarkup

namespace Theme

variable {name : String} {theme : Theme}

/-! ## The tables agree -/

/-- A built-in theme has the name that it is found under. -/
theorem name_of_builtin? (h : builtin? name = some theme) : theme.name = name := by
  unfold builtin? at h
  split at h
  all_goals cases h
  all_goals rfl

/-- The listed names are those that have a theme. -/
theorem isSome_builtin?_iff : (builtin? name).isSome = true ↔ name ∈ builtinNames := by
  constructor
  · intro h
    unfold builtin? at h
    split at h
    case h_9 => cases h
    all_goals decide
  · revert name
    decide

/-- Each variant of a family is listed. -/
theorem variant_mem_builtinNames : ∀ family ∈ families, ∀ dark : Bool,
    family ++ "-" ++ (if dark then "dark" else "light") ∈ builtinNames := by
  decide

/-- No family is listed, so that a listed name never stands for another. -/
theorem not_mem_families : ∀ name ∈ builtinNames, name ∉ families := by
  decide

/-! ## Choices -/

/-- **A choice stands for a listed name.** -/
theorem resolve_mem_builtinNames (choice : String) (dark : Bool) : resolve choice dark ∈ builtinNames := by
  unfold resolve
  split
  · rename_i hfamily
    exact variant_mem_builtinNames choice hfamily dark
  · split
    · rename_i hchoice
      exact isSome_builtin?_iff.mp hchoice
    · decide

example : resolve "gruvbox" true = "gruvbox-dark" := by decide

/-- A listed name stands for itself. -/
theorem resolve_of_mem (h : name ∈ builtinNames) (dark : Bool) : resolve name dark = name := by
  rw [resolve, if_neg (not_mem_families name h), if_pos (isSome_builtin?_iff.mpr h)]

end Theme

namespace Highlighter

/-! ## Stock -/

/-- The themes found for some names are found again among themselves. -/
theorem find?_filterMap_builtin? (names : List String) (name : String) :
    (names.filterMap Theme.builtin?).find? (·.name == name)
      = if name ∈ names then Theme.builtin? name else none := by
  induction names with
  | nil => rfl
  | cons first rest ih =>
    rcases hfirst : Theme.builtin? first with _ | theme
    · rw [List.filterMap_cons_none hfirst, ih]
      by_cases hname : name = first
      · rw [hname, hfirst, ite_self, ite_self]
      · simp only [List.mem_cons, hname, false_or]
    · have hsame : theme.name = first := Theme.name_of_builtin? hfirst
      rw [List.filterMap_cons_some hfirst, List.find?_cons, hsame, ih]
      by_cases hname : name = first
      · rw [hname, beq_self_eq_true, if_pos List.mem_cons_self, hfirst]
      · simp only [List.mem_cons, hname, false_or, beq_false_of_ne (Ne.symm hname)]

/-- The stock of a highlighter is the built-in themes to begin with. -/
theorem theme?_ofParser (parser : Parser) (name : String) : (ofParser parser).theme? name = Theme.builtin? name := by
  rw [ofParser, theme?, find?_filterMap_builtin?]
  split
  · rfl
  · rename_i hname
    exact (Option.not_isSome_iff_eq_none.mp (mt Theme.isSome_builtin?_iff.mp hname)).symm

/-- Every choice leads to a theme that is in stock to begin with. -/
theorem exists_of_resolve (parser : Parser) (choice : String) (dark : Bool) :
    ∃ theme ∈ (ofParser parser).themes, theme.name = Theme.resolve choice dark := by
  have hlisted := Theme.isSome_builtin?_iff.mpr (Theme.resolve_mem_builtinNames choice dark)
  obtain ⟨theme, htheme⟩ := Option.isSome_iff_exists.mp hlisted
  rw [← theme?_ofParser parser] at htheme
  exact ⟨theme, List.mem_of_find?_eq_some htheme, by simpa using List.find?_some htheme⟩

/-- A name that is in stock stays in stock when themes are added. -/
theorem isSome_theme?_foldl {highlighter : Highlighter} {name : String} (added : List Theme)
    (h : (highlighter.theme? name).isSome = true) :
    ((added.foldl withTheme highlighter).theme? name).isSome = true := by
  induction added generalizing highlighter with
  | nil => exact h
  | cons theme rest ih =>
    refine ih ?_
    rw [theme?_withTheme]
    split
    · rfl
    · exact h

theorem draw_ne_unknownTheme {highlighter : Highlighter} {query : Query}
    (h : (highlighter.theme? query.theme).isSome = true) (name : String) :
    highlighter.draw query ≠ .error (.unknownTheme name) := by
  obtain ⟨theme, htheme⟩ := Option.isSome_iff_exists.mp h
  rw [draw, list]
  rcases highlighter.table.find? query.grammar with _ | grammar
  · nofun
  · rw [htheme]
    rcases hparse : highlighter.parser grammar query.code with _ | tree
    · simp [hparse, Except.map]
    · simp [hparse, Except.map]

/-- **Choosing a theme never leads to an unknown one.** Whatever is chosen, in either mode, stands for a name that a
highlighter has a theme of in stock, whatever themes were added to its stock. So with any table of grammars, no drawing
fails for want of a theme. And what a choice stands for stands for itself, in either mode. -/
theorem resolve_in_stock (parser : Parser) (added : List Theme) (choice : String) (dark : Bool) :
    let chosen := Theme.resolve choice dark
    let highlighter := added.foldl withTheme (ofParser parser)
    (∃ theme, highlighter.theme? chosen = some theme ∧ theme.name = chosen) ∧
      (∀ (table : GrammarTable) (query : Query) (name : String),
        { highlighter with table := table }.draw { query with theme := chosen } ≠ .error (.unknownTheme name)) ∧
      ∀ again, Theme.resolve chosen again = chosen := by
  intro chosen highlighter
  have hlisted : chosen ∈ Theme.builtinNames := Theme.resolve_mem_builtinNames choice dark
  have hstock : (highlighter.theme? chosen).isSome = true := by
    refine isSome_theme?_foldl added ?_
    rw [theme?_ofParser]
    exact Theme.isSome_builtin?_iff.mpr hlisted
  refine ⟨?_, fun table query name => draw_ne_unknownTheme hstock name, Theme.resolve_of_mem hlisted⟩
  obtain ⟨theme, htheme⟩ := Option.isSome_iff_exists.mp hstock
  exact ⟨theme, htheme, by simpa using List.find?_some htheme⟩

end Highlighter

end CodeMarkup
