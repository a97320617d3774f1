import CodeMarkup.Grammar.Basic

/-!
# Resolutions

A language is drawn with its **primary** grammar, the last of its bundle; the ones before it are there
because the primary needs them. Only the primary may lack a name, and then the language's display name
is stamped on it, so that the name it is loaded under is the name it is asked for.

An empty bundle has no primary and does not resolve.
-/

namespace CodeMarkup

/-- A language's grammars in loading order, and the name of the primary one. -/
structure Resolution where
  /-- the definitions, the primary one last -/
  definitions : List GrammarDefinition
  /-- the name of the primary grammar -/
  primary : String
  deriving DecidableEq, Repr

/-- The resolution of an ordered list, for a language of the given display name. -/
def Resolution.ofList? (display : String) (definitions : List GrammarDefinition) :
    Option Resolution :=
  definitions.getLast?.map fun last =>
    let primary := last.name.getD display
    ⟨definitions.dropLast ++ [last.withName primary], primary⟩

/-- The resolution of a bundle. -/
def Bundle.resolve? (bundle : Bundle) (display : String) : Option Resolution :=
  Resolution.ofList? display bundle.toList

namespace Resolution

/-- Only the empty list does not resolve. -/
theorem ofList?_eq_none_iff {display : String} {definitions : List GrammarDefinition} :
    ofList? display definitions = none ↔ definitions = [] := by
  simp [ofList?]

/-- A list resolves to itself with the primary name stamped on its last definition. -/
theorem ofList?_concat (display : String) (front : List GrammarDefinition)
    (last : GrammarDefinition) :
    ofList? display (front ++ [last])
      = some ⟨front ++ [last.withName (last.name.getD display)], last.name.getD display⟩ := by
  simp [ofList?]

end Resolution

end CodeMarkup
