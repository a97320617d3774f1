import CodeMarkup.Proofs.Grammar.Growth
import CodeMarkup.Rehearsal.Engine

/-!
# What engines promise

A renderer can be sure of little that an engine does: an engine never unloads a name, and a load that
succeeds leaves every name of its list loaded (`Reliable`). Some engines also load nothing that is not listed,
and nothing before they succeed (`Frugal`). Highlighters promise both. Rehearsal engines promise the first only,
for they remember definitions without a name as well.

Other loads may take steps while one is under way, so what a load has come to depends on all that its engine
has been through since it began (`Underway`).
-/

namespace CodeMarkup

variable {World Engine Load : Type}

namespace EngineModel

/-- **The states of a load of a list**, together with the engine as it then is. -/
inductive Underway (model : EngineModel World Engine Load) (definitions : List GrammarDefinition) :
    Engine → Load → Prop where
  /-- a load begins -/
  | start {engine : Engine} : Underway model definitions engine (model.ofList definitions)
  /-- the load takes a step -/
  | going {world : World} {engine after : Engine} {load later : Load}
      (hbefore : Underway model definitions engine load)
      (hload : model.advance world engine load = (after, .going later)) :
    Underway model definitions after later
  /-- another load takes a step -/
  | meanwhile {world : World} {engine after : Engine} {load other : Load} {progress : Progress Load}
      (hbefore : Underway model definitions engine load)
      (hother : model.advance world engine other = (after, progress)) :
    Underway model definitions after load

/-- **What every engine promises.** -/
structure Reliable (model : EngineModel World Engine Load) : Prop where
  /-- nothing is unloaded -/
  keeps {world : World} {engine after : Engine} {load : Load} {progress : Progress Load} {name : String} :
    model.advance world engine load = (after, progress) → model.isLoaded engine name = true →
    model.isLoaded after name = true
  /-- a load that succeeds leaves every name of its list loaded -/
  loads {definitions : List GrammarDefinition} {world : World} {engine after : Engine} {load : Load}
      {name : String} :
    model.Underway definitions engine load → model.advance world engine load = (after, .ended (.ok ())) →
    name ∈ declaredNames definitions → model.isLoaded after name = true

/-- **What some engines promise besides**: only the last step of a load that succeeds loads anything, and it
loads names of its list only. -/
def Frugal (model : EngineModel World Engine Load) : Prop :=
  ∀ {definitions : List GrammarDefinition} {world : World} {engine after : Engine} {load : Load}
    {progress : Progress Load} {name : String}, model.Underway definitions engine load →
    model.advance world engine load = (after, progress) → model.isLoaded after name = true →
    model.isLoaded engine name = true ∨
      (progress = .ended (.ok ()) ∧ name ∈ declaredNames definitions)

end EngineModel

/-! ## Highlighters -/

namespace Highlighter

variable {around : Surroundings} {highlighter after : Highlighter} {load : TableLoad}
  {progress : Progress TableLoad} {definitions : List GrammarDefinition}

/-- A step of a highlighter's load is a step of a load of its table. -/
theorem loadStep_of_advance (h : model.advance around highlighter load = (after, progress)) :
    GrammarTable.LoadStep around highlighter.table load after.table progress := by
  rcases hadvance : highlighter.table.advance around load with ⟨table, result⟩
  simp only [model, hadvance] at h
  obtain ⟨rfl, rfl⟩ := Prod.mk.inj h
  exact GrammarTable.advance_inv hadvance

/-- A load that is under way has its ledger kept. -/
theorem keeps_of_underway (h : model.Underway definitions highlighter load) :
    highlighter.table.Keeps definitions load := by
  induction h with
  | start => exact GrammarTable.keeps_ofList _ definitions
  | going _ hload ih => exact (loadStep_of_advance hload).keeps ih
  | meanwhile _ hother ih => exact ih.of_le (loadStep_of_advance hother).le

theorem reliable_model : EngineModel.Reliable model where
  keeps hload hloaded := GrammarTable.isLoaded_of_le (loadStep_of_advance hload).le hloaded
  loads hunderway hload hname := by
    obtain ⟨definition, hmem, hdeclared⟩ := mem_declaredNames.mp hname
    obtain ⟨name, hsame, hbound⟩ :=
      (loadStep_of_advance hload).isLoaded_of_ok (keeps_of_underway hunderway) hmem
    obtain rfl := Option.some.inj (hsame.symm.trans hdeclared)
    exact hbound

theorem frugal_model : EngineModel.Frugal model := fun hunderway hload hloaded =>
  (loadStep_of_advance hload).mem_of_isLoaded (keeps_of_underway hunderway) hloaded

end Highlighter

/-! ## Rehearsal engines -/

namespace RehearsalEngine

variable {engine : RehearsalEngine} {definitions : List GrammarDefinition} {names : List String}
  {name : String}

theorem mem_loaded_add : name ∈ (engine.add names).loaded ↔ name ∈ engine.loaded ∨ name ∈ names := by
  obtain ⟨loaded⟩ := engine
  simp only [add]
  induction names generalizing loaded with
  | nil => simp
  | cons first rest ih =>
    rw [List.foldl_cons, ih]
    split
    · rename_i hmem
      rw [List.mem_cons]
      exact ⟨Or.imp_right Or.inr, fun h => h.elim Or.inl fun h => h.elim (fun hsame => Or.inl (hsame ▸ hmem))
        Or.inr⟩
    · rw [List.mem_append, List.mem_singleton, List.mem_cons, or_assoc]

/-- A declared name is shown as it is. -/
theorem mem_shownNames (h : name ∈ declaredNames definitions) : name ∈ shownNames definitions := by
  obtain ⟨definition, hmem, hdeclared⟩ := mem_declaredNames.mp h
  refine List.mem_map.mpr ⟨definition, hmem, ?_⟩
  rw [GrammarDefinition.shownName, hdeclared, Option.getD_some]

/-- A load of a rehearsal engine is its list of names throughout. -/
theorem eq_of_underway (h : model.Underway definitions engine names) : names = shownNames definitions := by
  induction h with
  | start => rfl
  | @going refusing _ _ _ _ _ hload =>
    cases refusing <;> cases hload
  | meanwhile _ _ ih => exact ih

theorem reliable_model : EngineModel.Reliable model where
  keeps {refusing} _ _ _ _ _ hload hloaded := by
    cases refusing with
    | true =>
      obtain ⟨rfl, -⟩ := Prod.mk.inj hload
      exact hloaded
    | false =>
      obtain ⟨rfl, -⟩ := Prod.mk.inj hload
      exact List.contains_iff_mem.mpr (mem_loaded_add.mpr (Or.inl (List.contains_iff_mem.mp hloaded)))
  loads {_ refusing} _ _ _ _ hunderway hload hname := by
    obtain rfl := eq_of_underway hunderway
    cases refusing with
    | true => cases hload
    | false =>
      obtain ⟨rfl, -⟩ := Prod.mk.inj hload
      exact List.contains_iff_mem.mpr (mem_loaded_add.mpr (Or.inr (mem_shownNames hname)))

end RehearsalEngine

/-! ## Resolutions -/

/-- **The primary grammar of a language is among those that it resolves to**, under its name. -/
theorem Language.primary_mem_declaredNames {language : Language} {answer : Except FetchFault Bundle}
    {resolution : Resolution} (h : language.resolution answer = .ok resolution) :
    resolution.primary ∈ declaredNames resolution.definitions := by
  rcases answer with fault | bundle
  · cases h
  · rcases hresolve : bundle.resolve? language.name with _ | found
    · simp only [Language.resolution, hresolve] at h
      cases h
    · simp only [Language.resolution, hresolve] at h
      obtain rfl := Except.ok.inj h
      obtain ⟨last, -, rfl⟩ := Option.map_eq_some_iff.mp hresolve
      refine mem_declaredNames.mpr ⟨_, List.mem_append_right _ (List.mem_singleton_self _), rfl⟩

end CodeMarkup
