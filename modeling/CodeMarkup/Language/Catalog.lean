import CodeMarkup.Language.Basic
import CodeMarkup.Language.Detect

/-!
# Catalogs

A catalog holds the languages that can be selected, in the order of their keys and one to a key. There
is always an entry for what is not highlighted. A file's language is the entry of the built-in language
that its path suggests, as the catalog has it now, and without such an entry the file is not
highlighted.
-/

namespace CodeMarkup

/-- Languages ascending by key, with one put in, in place of any other of its key. -/
def Language.insertSorted (language : Language) : List Language → List Language
  | [] => [language]
  | other :: rest =>
    if language.key < other.key then language :: other :: rest
    else if language.key = other.key then language :: rest
    else other :: insertSorted language rest

/-- The languages that can be selected. -/
structure Catalog where
  /-- the entries, ascending by key -/
  languages : List Language

namespace Catalog

/-- The catalog that offers no highlighting. -/
def plain : Catalog := ⟨[.plaintext]⟩

/-- The catalog with a language added, or put in place of the one with its key. -/
def register (catalog : Catalog) (language : Language) : Catalog :=
  ⟨language.insertSorted catalog.languages⟩

/-- The language with a key. -/
def get? (catalog : Catalog) (key : String) : Option Language :=
  catalog.languages.find? (·.key == key)

/-- The keys, ascending. -/
def keys (catalog : Catalog) : List String :=
  catalog.languages.map Language.key

/-- The catalog of all built-in languages; `auto` says whether they may be installed. -/
def builtin (auto : Bool) : Catalog :=
  Builtin.all.foldl (fun catalog language => catalog.register (.ofBuiltin auto language)) plain

/-- The language for the file that a path leads to. -/
def detect (catalog : Catalog) (path : PathBytes) : Language :=
  ((Builtin.ofPath? path).bind fun language => catalog.get? language.grammarName).getD .plaintext

/-- Registering a language makes it the entry of its key and leaves the other entries alone. -/
theorem get?_register (catalog : Catalog) (language : Language) (key : String)
    (sorted : catalog.languages.Pairwise (fun one other => one.key < other.key)) :
    (catalog.register language).get? key
      = if key = language.key then some language else catalog.get? key := by
  obtain ⟨languages⟩ := catalog
  simp only [register, get?] at *
  induction languages with
  | nil =>
    by_cases h : key = language.key
    · simp [Language.insertSorted, h]
    · simp [Language.insertSorted, h, Ne.symm h]
  | cons other rest ih =>
    obtain ⟨least, later⟩ := List.pairwise_cons.1 sorted
    unfold Language.insertSorted
    split
    · by_cases h : key = language.key
      · simp [h]
      · simp [h, Ne.symm h]
    · split
      · rename_i heq
        by_cases h : key = language.key
        · simp [h]
        · simp [h, Ne.symm h, heq ▸ Ne.symm h]
      · rename_i hne
        by_cases h : key = other.key
        · subst h
          simp [Ne.symm hne]
        · simp [Ne.symm h, ih later]

end Catalog

end CodeMarkup
