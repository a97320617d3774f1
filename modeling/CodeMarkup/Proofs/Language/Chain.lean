import CodeMarkup.Language.Catalog
import CodeMarkup.Proofs.Grammar.Growth
import CodeMarkup.Proofs.Install.Runs
import CodeMarkup.Render.Request

/-!
# Chains of grammars

Whatever the supplier of a built-in language yields, it is the language's whole chain: a definition for each
grammar of the chain, in order and under the grammar's name (`names_of_supply`). Every one of them has a name,
so resolving stamps none, and the list that is loaded has the same names (`declaredNames_of_supply`).

A chain has with each grammar the one that draws what the grammar stands for
(`Builtin.renderName_mem_chain`).
-/

namespace CodeMarkup

/-! ## Suppliers -/

namespace Site

variable {site after : Site} {auto : Bool} {language : Builtin} {bundle : Bundle}

/-- A grammar that was located was usable, or it was made sure of; its definition leads to its library. -/
theorem locate_cases {definition : GrammarDefinition}
    (h : locate auto language site = .ok definition after) :
    definition = site.definition language ∧
      (site.isUsable language = true ∧ after = site ∨
        ∃ result, ensure language site = .ok result after) := by
  unfold locate at h
  split at h
  · rename_i husable
    cases h
    exact ⟨rfl, Or.inl ⟨husable, rfl⟩⟩
  · split at h
    · split at h
      · rename_i hensure
        cases h
        refine ⟨?_, Or.inr ⟨_, hensure⟩⟩
        rw [definition, (sameSetting_of_ensure hensure).libraryPath, definition]
      · cases h
    · cases h

theorem sameSetting_of_locate {definition : GrammarDefinition}
    (h : locate auto language site = .ok definition after) : SameSetting site after := by
  rcases (locate_cases h).2 with ⟨-, rfl⟩ | ⟨result, hensure⟩
  · exact .refl _
  · exact sameSetting_of_ensure hensure

/-- The definitions of a chain lead to the libraries of its grammars. -/
theorem definitions_of_locateAll {chain : List Builtin} {definitions : List GrammarDefinition}
    (h : locateAll auto chain site = .ok definitions after) : definitions = chain.map site.definition := by
  induction chain generalizing site definitions with
  | nil =>
    cases h
    rfl
  | cons language rest ih =>
    obtain ⟨definition, between, hlocate, h⟩ := done_of_bind h
    obtain ⟨others, last, hrest, h⟩ := done_of_bind h
    cases h
    rw [List.map_cons, (locate_cases hlocate).1, ih hrest]
    refine congrArg _ (List.map_congr_left fun member _ => ?_)
    rw [Site.definition, (sameSetting_of_locate hlocate).libraryPath, Site.definition]

/-- A supplier goes through the language's chain, and what it yields is what that comes to. -/
theorem supply_cases (auto : Bool) (language : Builtin) (site : Site) :
    (∃ definitions bundle after, locateAll auto language.chain site = .ok definitions after ∧
      supply auto language site = .ok bundle after ∧ bundle.toList = definitions) ∨
    ∃ fault after, locateAll auto language.chain site = .error fault after ∧
      supply auto language site = .error fault after := by
  unfold supply
  generalize language.chain = chain
  -- a chain of one grammar is yielded as a definition of its own
  rcases chain with _ | ⟨only, _ | ⟨second, rest⟩⟩
  case cons.nil =>
    simp only [locateAll, bind, EStateM.bind]
    rcases locate auto only site with ⟨definition, after⟩ | ⟨fault, after⟩
    · exact Or.inl ⟨_, _, after, rfl, rfl, rfl⟩
    · exact Or.inr ⟨fault, after, rfl, rfl⟩
  all_goals
    simp only [bind, EStateM.bind]
    rcases locateAll auto _ site with ⟨definitions, after⟩ | ⟨fault, after⟩
    · exact Or.inl ⟨_, _, after, rfl, rfl, rfl⟩
    · exact Or.inr ⟨fault, after, rfl, rfl⟩

theorem locateAll_of_supply (h : supply auto language site = .ok bundle after) :
    locateAll auto language.chain site = .ok bundle.toList after := by
  rcases supply_cases auto language site with
    ⟨definitions, found, last, hlocate, hsupply, hlist⟩ | ⟨fault, last, -, hsupply⟩
  · cases hsupply.symm.trans h
    rw [hlocate, hlist]
  · cases hsupply.symm.trans h

/-- **The supplier of a built-in language yields its whole chain**, each grammar under its name. -/
theorem names_of_supply (h : supply auto language site = .ok bundle after) :
    bundle.toList.map GrammarDefinition.name = language.chain.map (some ·.grammarName) := by
  rw [definitions_of_locateAll (locateAll_of_supply h), List.map_map]
  rfl

end Site

/-! ## Resolutions -/

/-- A language resolves by what its supplier has yielded. -/
theorem Language.resolve?_of_resolution {language : Language} {answer : Except FetchFault Bundle}
    {resolution : Resolution} (h : language.resolution answer = .ok resolution) :
    ∃ bundle, answer = .ok bundle ∧ bundle.resolve? language.name = some resolution := by
  rcases answer with fault | bundle
  · cases h
  · rcases hresolve : bundle.resolve? language.name with _ | found
    · simp only [Language.resolution, hresolve] at h
      cases h
    · simp only [Language.resolution, hresolve] at h
      exact ⟨bundle, rfl, hresolve ▸ congrArg some (Except.ok.inj h)⟩

/-- A definition that has a name is left as it is by resolving. -/
theorem Resolution.definitions_of_named {display : String} {definitions : List GrammarDefinition}
    {resolution : Resolution} (hnamed : ∀ definition ∈ definitions, definition.name.isSome = true)
    (h : ofList? display definitions = some resolution) : resolution.definitions = definitions := by
  rcases List.eq_nil_or_concat definitions with rfl | ⟨front, last, rfl⟩
  · cases h
  · rw [List.concat_eq_append] at h hnamed ⊢
    rw [ofList?_concat] at h
    obtain rfl := Option.some.inj h
    have hlast := hnamed last (List.mem_append_right _ (List.mem_singleton_self _))
    obtain ⟨name, hname⟩ := Option.isSome_iff_exists.mp hlast
    have hsame : last.withName (last.name.getD display) = last := by
      obtain ⟨own, source⟩ := last
      obtain rfl : own = some name := hname
      rfl
    exact congrArg (front ++ [·]) hsame

/-- **A built-in language loads its whole chain**, under the names of its grammars. -/
theorem Language.declaredNames_of_supply {language : Language} {builtin : Builtin} {auto : Bool}
    {site after : Site} {bundle : Bundle} {resolution : Resolution}
    (hsupply : Site.supply auto builtin site = .ok bundle after)
    (h : language.resolution (.ok bundle) = .ok resolution) :
    declaredNames resolution.definitions = builtin.chain.map Builtin.grammarName := by
  have hnames := Site.names_of_supply hsupply
  obtain ⟨_, hsame, hresolve⟩ := resolve?_of_resolution h
  obtain rfl := Except.ok.inj hsame
  have hnamed : ∀ definition ∈ bundle.toList, definition.name.isSome = true := by
    intro definition hmem
    have hname : definition.name ∈ builtin.chain.map (some ·.grammarName) :=
      hnames ▸ List.mem_map_of_mem hmem
    obtain ⟨member, -, hmember⟩ := List.mem_map.mp hname
    rw [← hmember, Option.isSome_some]
  calc declaredNames resolution.definitions
      = (bundle.toList.map GrammarDefinition.name).filterMap id := by
        rw [Resolution.definitions_of_named hnamed hresolve, declaredNames, List.filterMap_map,
          Function.id_comp]
    _ = builtin.chain.map Builtin.grammarName := by
        rw [hnames, List.filterMap_map]
        exact congrFun List.filterMap_eq_map _

/-- **A chain has with each grammar the one that draws what the grammar stands for.** -/
theorem Builtin.renderName_mem_chain {builtin : Builtin} {name : String}
    (h : name ∈ builtin.chain.map grammarName) : renderName name ∈ builtin.chain.map grammarName := by
  obtain ⟨member, hmem, rfl⟩ := List.mem_map.mp h
  cases builtin with
  | typeScript =>
    rcases List.mem_cons.mp hmem with rfl | hmem
    · decide
    · obtain rfl := List.mem_singleton.mp hmem
      decide
  | _ =>
    obtain rfl := List.mem_singleton.mp hmem
    decide

/-! ## Catalogs -/

theorem Language.mem_of_mem_insertSorted {language other : Language} {languages : List Language}
    (h : other ∈ language.insertSorted languages) : other = language ∨ other ∈ languages := by
  induction languages with
  | nil => exact Or.inl (List.mem_singleton.mp h)
  | cons first rest ih =>
    unfold insertSorted at h
    split at h
    · exact List.mem_cons.mp h
    · split at h
      · exact (List.mem_cons.mp h).imp_right (List.mem_cons_of_mem _)
      · rcases List.mem_cons.mp h with rfl | hrest
        · exact Or.inr List.mem_cons_self
        · exact (ih hrest).imp_right (List.mem_cons_of_mem _)

/-- **The built-in catalog has the built-in languages only**, besides what is not highlighted. -/
theorem Catalog.of_mem_builtin {auto : Bool} {language : Language}
    (h : language ∈ (builtin auto).languages) :
    language = .plaintext ∨ ∃ builtin, language = .ofBuiltin auto builtin := by
  suffices ∀ (builtins : List Builtin) (catalog : Catalog),
      language ∈ (builtins.foldl (fun catalog builtin =>
        catalog.register (.ofBuiltin auto builtin)) catalog).languages →
      language ∈ catalog.languages ∨ ∃ builtin, language = .ofBuiltin auto builtin from
    (this Builtin.all plain h).imp_left List.mem_singleton.mp
  intro builtins
  induction builtins with
  | nil => exact fun _ => Or.inl
  | cons first rest ih =>
    intro catalog hmem
    rcases ih _ hmem with hbefore | hbuiltin
    · exact (Language.mem_of_mem_insertSorted hbefore).symm.imp_right fun hsame => ⟨first, hsame⟩
    · exact Or.inr hbuiltin

end CodeMarkup
