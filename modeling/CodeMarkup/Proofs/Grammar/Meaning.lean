import CodeMarkup.Proofs.Grammar.Growth

/-!
# What names mean

A table binds a name to the tables of a definition that declares it. Which definitions those are, and what is on
the disk when their sources are prepared, is left open here: names are given a **meaning**, which says of every
name what it may be bound to, and a definition is true to it if nothing else comes of preparing its source.

Loads of definitions that are true to a meaning keep tables true to it (`LoadStep.trueTo`), because what a
load stages comes from its list (`TableLoad.From`). Nothing is asked of the definitions whose names are passed
over.
-/

namespace CodeMarkup

/-- What each name may be bound to. -/
abbrev Meaning := String → Grammar → Prop

/-- Nothing but what its name means comes of preparing a definition's source. -/
def GrammarDefinition.TrueTo (meaning : Meaning) (around : Surroundings)
    (definition : GrammarDefinition) : Prop :=
  ∀ name grammar, definition.name = some name → definition.source.prepare around = .ok grammar →
    meaning name grammar

/-- **A load has its work from a list of definitions**, and what it has prepared is what the names mean. -/
structure TableLoad.From (meaning : Meaning) (definitions : List GrammarDefinition) (load : TableLoad) :
    Prop where
  /-- what is to be checked is on the list -/
  pending : load.pending ⊆ definitions
  /-- what is being prepared is the source of a definition on the list -/
  preparing {name : String} {source : GrammarSource} : load.preparing = some (name, source) →
    ⟨some name, source⟩ ∈ definitions
  /-- what is prepared is what its name means -/
  staged {name : String} {grammar : Grammar} : (name, grammar) ∈ load.staged → meaning name grammar

theorem TableLoad.from_ofList (meaning : Meaning) (definitions : List GrammarDefinition) :
    From meaning definitions (.ofList definitions) :=
  ⟨List.Subset.refl _, nofun, nofun⟩

namespace GrammarTable

variable {around : Surroundings} {table next : GrammarTable} {load : TableLoad} {meaning : Meaning}
  {progress : Progress TableLoad} {definitions : List GrammarDefinition} {name : String}
  {grammar : Grammar}

/-- **Every name is bound to what it means.** -/
def TrueTo (meaning : Meaning) (table : GrammarTable) : Prop :=
  ∀ name grammar, table.find? name = some grammar → meaning name grammar

theorem empty_trueTo (meaning : Meaning) : empty.TrueTo meaning :=
  nofun

/-- What is found after several names were bound was found before, or is one of the bindings. -/
theorem find?_bindAll {staged : List (String × Grammar)}
    (h : (table.bindAll staged).find? name = some grammar) :
    table.find? name = some grammar ∨ (name, grammar) ∈ staged := by
  induction staged generalizing table with
  | nil => exact Or.inl h
  | cons pair rest ih =>
    rcases ih h with hbound | hrest
    · rw [find?_bind] at hbound
      split at hbound
      · rename_i hsame
        rcases Option.or_eq_some_iff.mp hbound with hold | ⟨-, hnew⟩
        · exact Or.inl (hsame ▸ hold)
        · obtain rfl := Option.some.inj hnew
          exact Or.inr (hsame ▸ List.mem_cons_self)
      · exact Or.inl hbound
    · exact Or.inr (List.mem_cons_of_mem _ hrest)

/-- **A step of a load keeps to the list.** -/
theorem LoadStep.from {going : TableLoad} (hstep : LoadStep around table load next (.going going))
    (htrue : ∀ definition ∈ definitions, definition.TrueTo meaning around)
    (h : load.From meaning definitions) : going.From meaning definitions := by
  cases hstep with
  | prepared hprepare =>
    refine ⟨h.pending, nofun, fun hmem => ?_⟩
    rcases List.mem_append.mp hmem with hold | hnew
    · exact h.staged hold
    · obtain ⟨rfl, rfl⟩ := Prod.mk.inj (List.mem_singleton.mp hnew)
      exact htrue _ (h.preparing rfl) _ _ rfl hprepare
  | passed => exact ⟨List.Subset.trans (List.subset_cons_self ..) h.pending, nofun, h.staged⟩
  | @found definition rest staged name hname =>
    refine ⟨List.Subset.trans (List.subset_cons_self ..) h.pending, fun hpreparing => ?_, h.staged⟩
    obtain ⟨rfl, rfl⟩ := Prod.mk.inj (Option.some.inj hpreparing)
    have hmem := h.pending List.mem_cons_self
    rwa [← hname]

/-- **A step of a load leaves every name bound to what it means.** -/
theorem LoadStep.trueTo (hstep : LoadStep around table load next progress)
    (hload : load.From meaning definitions) (htable : table.TrueTo meaning) : next.TrueTo meaning := by
  cases hstep with
  | committed =>
    intro name grammar hfind
    rcases find?_bindAll hfind with hold | hstaged
    · exact htable name grammar hold
    · exact hload.staged hstaged
  | _ => exact htable

end GrammarTable

/-! ## Lasting libraries -/

/-- What a library has been read to hold in one place it holds in another. -/
def Surroundings.Agrees (around other : Surroundings) : Prop :=
  ∀ path symbol grammar twin, around.readLibrary path symbol = .ok grammar →
    other.readLibrary path symbol = .ok twin → grammar = twin

/-- A source that is prepared with success gives tables that can be driven. -/
theorem Grammar.eq_of_check {grammar checked : Grammar} (h : grammar.check = .ok checked) :
    checked = grammar := by
  unfold check at h
  split at h
  · exact (Except.ok.inj h).symm
  · cases h

/-- **A source gives the same tables wherever it is prepared**, if its library does. -/
theorem GrammarSource.eq_of_prepare {around other : Surroundings} {source : GrammarSource}
    {grammar twin : Grammar} (hagrees : around.Agrees other)
    (hgrammar : source.prepare around = .ok grammar) (htwin : source.prepare other = .ok twin) :
    grammar = twin := by
  cases source with
  | linked tables =>
    exact Except.ok.inj (hgrammar.symm.trans htwin)
  | library path symbol =>
    simp only [prepare, bind, Except.bind] at hgrammar htwin
    rcases hread : around.readLibrary path symbol with fault | tables
    · rw [hread] at hgrammar
      cases hgrammar
    · rcases hother : other.readLibrary path symbol with fault | others
      · rw [hother] at htwin
        cases htwin
      · rw [hread] at hgrammar
        rw [hother] at htwin
        rw [Grammar.eq_of_check hgrammar, Grammar.eq_of_check htwin]
        exact hagrees path symbol tables others hread hother

end CodeMarkup
