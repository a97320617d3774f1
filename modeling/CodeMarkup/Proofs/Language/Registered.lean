import CodeMarkup.Proofs.Render.Fresh
import CodeMarkup.Render.Step

/-!
# Registering languages

A catalog that started as one of the two there are, and in which languages were then registered, whatever they are and
however many, has its entries in the order of their keys and one to a key, each found under its own, and it always has
one for what is not highlighted (`Catalog.Sound`). One registration preserves that (`Catalog.Sound.register`). So what
is found under a key is what was registered under it last, or else what was there at the start (`get?_registerAll`).

An entry that took the place of the one for what is not highlighted has its key, so it is not highlighted either,
whether or not it has a supplier.
-/

namespace CodeMarkup

/-! ## Languages ascending by key -/

namespace Language

variable {language other : Language} {languages : List Language}

/-- The keys of the languages ascend, so there is one language to a key. -/
def Ascending (languages : List Language) : Prop :=
  languages.Pairwise fun one other => one.key < other.key

/-- Putting a language in keeps the order. -/
theorem Ascending.insertSorted (h : Ascending languages) (language : Language) :
    Ascending (language.insertSorted languages) := by
  induction languages with
  | nil => exact List.pairwise_singleton _ _
  | cons first rest ih =>
    obtain ⟨hleast, hrest⟩ := List.pairwise_cons.mp h
    unfold Language.insertSorted
    split
    · rename_i hbefore
      refine List.pairwise_cons.mpr ⟨fun other hother => ?_, h⟩
      rcases List.mem_cons.mp hother with rfl | hother
      · exact hbefore
      · exact String.lt_trans hbefore (hleast other hother)
    · split
      · rename_i hsame
        exact List.pairwise_cons.mpr ⟨hsame ▸ hleast, hrest⟩
      · rename_i hnotBefore hdiffers
        have hafter : first.key < language.key :=
          Std.lt_of_le_of_ne (String.not_lt.mp hnotBefore) (Ne.symm hdiffers)
        refine List.pairwise_cons.mpr ⟨fun other hother => ?_, ih hrest⟩
        rcases mem_of_mem_insertSorted hother with rfl | hother
        · exact hafter
        · exact hleast other hother

/-- One of the languages is the first with its key. -/
theorem Ascending.find?_key (h : Ascending languages) (hmem : language ∈ languages) :
    languages.find? (·.key == language.key) = some language := by
  induction languages with
  | nil => cases hmem
  | cons first rest ih =>
    obtain ⟨hleast, hrest⟩ := List.pairwise_cons.mp h
    rcases List.mem_cons.mp hmem with rfl | hmem
    · exact List.find?_cons_of_pos (beq_self_eq_true _)
    · have hdiffers : first.key ≠ language.key :=
        fun hsame => String.lt_irrefl _ (hsame ▸ hleast language hmem)
      rw [List.find?_cons_of_neg (by simpa using hdiffers), ih hrest hmem]

end Language

namespace Catalog

/-- How a catalog starts. -/
inductive Start where
  /-- it offers no highlighting -/
  | plain
  /-- it has the built-in languages; `auto` says whether they may be installed -/
  | builtin (auto : Bool)

/-- The catalog at the start. -/
def Start.catalog : Start → Catalog
  | plain => .plain
  | builtin auto => .builtin auto

/-- The catalog with languages registered, one after another. -/
def registerAll (catalog : Catalog) (languages : List Language) : Catalog :=
  languages.foldl register catalog

variable {catalog : Catalog} {language : Language} {key : String}

theorem key_of_get? (h : catalog.get? key = some language) : language.key = key := by
  simpa using List.find?_some h

/-- **What always holds of a catalog.** -/
structure Sound (catalog : Catalog) : Prop where
  /-- the keys ascend -/
  ascending : Language.Ascending catalog.languages
  /-- there is an entry for what is not highlighted -/
  plaintext : ∃ entry, catalog.get? Language.plaintextKey = some entry

namespace Sound

theorem plain : Sound .plain :=
  ⟨List.pairwise_singleton _ _, .plaintext, rfl⟩

/-- Registering a language, whichever it is, preserves what always holds. -/
theorem register (h : catalog.Sound) (language : Language) : (catalog.register language).Sound where
  ascending := h.ascending.insertSorted language
  plaintext := by
    rw [get?_register catalog language _ h.ascending]
    split
    · exact ⟨language, rfl⟩
    · exact h.plaintext

theorem keys_ascending (h : catalog.Sound) : catalog.keys.Pairwise (· < ·) :=
  List.pairwise_map.mpr h.ascending

theorem keys_nodup (h : catalog.Sound) : catalog.keys.Nodup := by
  refine h.keys_ascending.imp fun hbefore => ?_
  rintro rfl
  exact String.lt_irrefl _ hbefore

theorem get?_key (h : catalog.Sound) (hmem : language ∈ catalog.languages) :
    catalog.get? language.key = some language :=
  h.ascending.find?_key hmem

/-- A file's language has a key of the catalog, be it the one of what is not highlighted. -/
theorem key_detect_mem (h : catalog.Sound) (path : PathBytes) : (catalog.detect path).key ∈ catalog.keys := by
  rcases catalog.mem_or_eq_of_detect path with hplaintext | hmem
  · obtain ⟨entry, hentry⟩ := h.plaintext
    rw [hplaintext, show Language.plaintext.key = entry.key from (key_of_get? hentry).symm]
    exact List.mem_map_of_mem (mem_of_get? hentry)
  · exact List.mem_map_of_mem hmem

end Sound

/-! ## Runs of registrations -/

theorem Sound.registerAll (h : catalog.Sound) (languages : List Language) :
    (catalog.registerAll languages).Sound := by
  induction languages generalizing catalog with
  | nil => exact h
  | cons first rest ih => exact ih (h.register first)

/-- The built-in catalog comes from the one that offers no highlighting, by registering every built-in language. -/
theorem builtin_eq_registerAll (auto : Bool) :
    builtin auto = registerAll .plain (Builtin.all.map (.ofBuiltin auto)) :=
  (List.foldl_map ..).symm

/-- **Under a key is what was registered under it last**, or else what was there before. -/
theorem Sound.get?_registerAll (h : catalog.Sound) (languages : List Language) (key : String) :
    (catalog.registerAll languages).get? key
      = (languages.reverse.find? (·.key == key)).or (catalog.get? key) := by
  induction languages generalizing catalog with
  | nil => rfl
  | cons first rest ih =>
    have hstep : ((catalog.register first).registerAll rest).get? key
        = (rest.reverse.find? (·.key == key)).or ((catalog.register first).get? key) := ih (h.register first)
    rw [List.reverse_cons, List.find?_append, Option.or_assoc]
    refine hstep.trans (congrArg _ ?_)
    rw [get?_register catalog first key h.ascending]
    by_cases hsame : key = first.key
    · simp [hsame]
    · simp [hsame, Ne.symm hsame]

theorem Start.sound (start : Start) : start.catalog.Sound := by
  cases start with
  | plain => exact .plain
  | builtin auto =>
    rw [catalog, builtin_eq_registerAll]
    exact Sound.plain.registerAll _

end Catalog

/-! ## What is not highlighted -/

namespace Request

variable {request : Request} {language : Language}

/-- A request in the language that is not highlighted, or in one of its key, has none to highlight. -/
theorem highlighted?_of_plaintext (hlanguage : request.language = some language)
    (hplaintext : language.isPlaintext = true) : request.highlighted? = none := by
  simp [highlighted?, hlanguage, hplaintext]

/-- Without a language to highlight a renderer only escapes the code, and stays as it is. -/
theorem render_of_highlighted?_none (h : request.highlighted? = none) (renderer : Renderer) :
    Renderer.render request renderer = .ok request.plainMarkup renderer := by
  simp only [Renderer.render, h]
  rfl

/-- Nor is a drawing of it in a studio, with or without an engine, more than that. -/
theorem firstPhase_of_highlighted?_none {Load : Type} (h : request.highlighted? = none) (engine : Option Nat) :
    Studio.firstPhase request engine = (.drawn engine (.ok request.plainMarkup) : Phase Load) := by
  cases engine with
  | none => rfl
  | some engine => simp only [Studio.firstPhase, h, plainMarkup]

end Request

/-! ## Catalogs after any registrations -/

/-- **Whatever languages are registered** in a catalog, from either start, its keys ascend, one to an entry; an entry
is found under its own key, and it is the one registered last or else the one from the start. There is always an entry
for what is not highlighted, and code in it is drawn plain. A file's language has a key of the catalog: it is the entry
of the built-in language that the path suggests, if there is one now, and otherwise the one without a supplier that is
not highlighted. -/
theorem Catalog.registered {Load : Type} (start : Start) (registrations : List Language) :
    let catalog := start.catalog.registerAll registrations
    catalog.keys.Pairwise (· < ·) ∧ catalog.keys.Nodup ∧
    (∀ language ∈ catalog.languages, catalog.get? language.key = some language) ∧
    (∀ key language, catalog.get? key = some language → language.key = key) ∧
    (∀ key, catalog.get? key
      = (registrations.reverse.find? (·.key == key)).or (start.catalog.get? key)) ∧
    (∃ entry, catalog.get? Language.plaintextKey = some entry ∧ entry.isPlaintext = true ∧
      ∀ request : Request, request.language = some entry →
        (∀ renderer, Renderer.render request renderer = .ok request.plainMarkup renderer) ∧
        ∀ engine, Studio.firstPhase request engine = (.drawn engine (.ok request.plainMarkup) : Phase Load)) ∧
    ∀ path, (catalog.detect path).key ∈ catalog.keys ∧
      ((∃ builtin, Builtin.ofPath? path = some builtin ∧
          catalog.get? builtin.grammarName = some (catalog.detect path)) ∨
        (∀ builtin, Builtin.ofPath? path = some builtin → catalog.get? builtin.grammarName = none) ∧
          catalog.detect path = .plaintext ∧ (catalog.detect path).supplier = none) := by
  intro catalog
  have hsound : catalog.Sound := start.sound.registerAll registrations
  refine ⟨hsound.keys_ascending, hsound.keys_nodup, fun language => hsound.get?_key,
    fun key language => key_of_get?, start.sound.get?_registerAll registrations, ?plaintext, ?detected⟩
  case plaintext =>
    obtain ⟨entry, hentry⟩ := hsound.plaintext
    have hplaintext : entry.isPlaintext = true := decide_eq_true (key_of_get? hentry)
    refine ⟨entry, hentry, hplaintext, fun request hlanguage => ?_⟩
    have hnone := Request.highlighted?_of_plaintext hlanguage hplaintext
    exact ⟨Request.render_of_highlighted?_none hnone, Request.firstPhase_of_highlighted?_none hnone⟩
  case detected =>
    refine fun path => ⟨hsound.key_detect_mem path, ?_⟩
    rw [detect]
    rcases hfound : (Builtin.ofPath? path).bind fun builtin => catalog.get? builtin.grammarName with _ | language
    · exact Or.inr ⟨Option.bind_eq_none_iff.mp hfound, rfl, rfl⟩
    · obtain ⟨builtin, hpath, hentry⟩ := Option.bind_eq_some_iff.mp hfound
      exact Or.inl ⟨builtin, hpath, hentry⟩

end CodeMarkup
