import CodeMarkup.Text.Quoted

/-!
# Grammars

A grammar is a parser's tables, ready for use. What is handed around before that is a **definition**:
where the tables come from, and usually the name under which they are to be known. They are either
linked into the program or lie in a compiled library, which is opened only when the grammar is loaded.

Whoever supplies a language's grammars yields either one definition or a sequence of them. Either way
it stands for an ordered list: dependencies first, and the language's own grammar last.
-/

namespace CodeMarkup

/-- A parser's tables. -/
structure Grammar where
  /-- which parser the tables drive -/
  parser : String
  /-- the version of the binary interface they were compiled for -/
  abi : Nat
  deriving DecidableEq, Repr

namespace Grammar

/-- The interface version that compiled tables have today. -/
def currentAbi : Nat := 14

/-- The oldest interface version that can still be driven. -/
def oldestAbi : Nat := 13

/-- Whether the tables can be driven. -/
def isCompatible (grammar : Grammar) : Bool :=
  oldestAbi ≤ grammar.abi && grammar.abi ≤ currentAbi

end Grammar

/-- Where a grammar's tables come from. -/
inductive GrammarSource where
  /-- tables linked into the program -/
  | linked (grammar : Grammar)
  /-- a compiled library and the symbol it exports the tables under -/
  | library (path symbol : String)
  deriving DecidableEq, Repr

/-- A grammar before it is loaded. -/
structure GrammarDefinition where
  /-- the name it declares, if it declares one -/
  name : Option String
  /-- where its tables come from -/
  source : GrammarSource
  deriving DecidableEq, Repr

namespace GrammarDefinition

/-- The symbol under which a library exports the tables of a grammar. -/
def symbolOf (name : String) : String :=
  "tree_sitter_" ++ name

/-- A named grammar in a compiled library, under the usual symbol. -/
def ofLibrary (name path : String) : GrammarDefinition :=
  ⟨some name, .library path (symbolOf name)⟩

/-- What a definition without a name is called in messages. -/
def unnamed : String := "<unnamed>"

/-- The name that a definition goes by in messages. -/
def shownName (definition : GrammarDefinition) : String :=
  definition.name.getD unnamed

/-- The definition under another name. -/
def withName (definition : GrammarDefinition) (name : String) : GrammarDefinition :=
  { definition with name := some name }

end GrammarDefinition

/-! ## Descriptions -/

/-- Named parts between braces, after the name of the whole. -/
def describeParts (whole : String) (parts : List (String × String)) : String :=
  whole ++ " \x7b "
    ++ ", ".intercalate (parts.map fun (name, value) => name ++ ": " ++ value) ++ " \x7d"

/-- A source, described for a log. -/
def GrammarSource.describe : GrammarSource → String
  | .linked _ => "Static"
  | .library path symbol =>
    describeParts "Library" [("path", Text.quote path), ("symbol", Text.quote symbol)]

/-- A definition, described for a log. -/
def GrammarDefinition.describe (definition : GrammarDefinition) : String :=
  describeParts "GrammarDefinition"
    [("name", match definition.name with
      | some name => "Some(" ++ Text.quote name ++ ")"
      | none => "None"),
     ("source", definition.source.describe)]

/-! ## Bundles -/

/-- What a language's supplier yields. -/
inductive Bundle where
  /-- the language's own grammar alone -/
  | single (definition : GrammarDefinition)
  /-- dependencies, then the language's own grammar -/
  | sequence (definitions : List GrammarDefinition)
  deriving DecidableEq, Repr

/-- The definitions of a bundle, in loading order. -/
def Bundle.toList : Bundle → List GrammarDefinition
  | .single definition => [definition]
  | .sequence definitions => definitions

end CodeMarkup
