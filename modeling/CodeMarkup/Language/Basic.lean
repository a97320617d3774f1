import CodeMarkup.Grammar.Basic
import CodeMarkup.Install.Fault
import CodeMarkup.Language.Builtin

/-!
# Languages

A language that can be selected has a **key**, by which it is selected and told apart from others, a
name to show, and a supplier of its grammars. Suppliers are asked only when a language is drawn, and
each time it is drawn.

The language with the key `plaintext` is the one that is not highlighted. Whatever else is known under
that key is not highlighted either.
-/

namespace CodeMarkup

/-- Why a supplier did not yield a language's grammars. -/
inductive FetchFault where
  /-- it yielded an empty sequence -/
  | noGrammars
  /-- a grammar is missing or outdated and must not be installed -/
  | notInstalled (grammar : String)
  /-- a grammar could not be installed -/
  | notEnsured (fault : EnsureFault)
  /-- a reason of the supplier's own -/
  | reported (text : String)
  deriving DecidableEq, Repr

/-- The wording of a fault. -/
def FetchFault.message : FetchFault → String
  | .noGrammars => "supplier returned no grammars"
  | .notInstalled grammar => "grammar " ++ grammar ++ " is not installed"
  | .notEnsured fault => fault.message
  | .reported text => text

/-- Where a language's grammars come from. -/
inductive Supplier where
  /-- always the same answer; unless `prompt`, it waits to be let through before it gives it -/
  | fixed (answer : Except String Bundle) (prompt : Bool)
  /-- the libraries of a built-in language, installed when missing if `auto` -/
  | installed (language : Builtin) (auto : Bool)

/-- A language that can be selected. -/
structure Language where
  /-- the key by which it is selected -/
  key : String
  /-- the name to show -/
  name : String
  /-- the supplier of its grammars, if it has one -/
  supplier : Option Supplier

namespace Language

/-- The key of what is not highlighted. -/
def plaintextKey : String := "plaintext"

/-- The language that is not highlighted. -/
def plaintext : Language := ⟨plaintextKey, "Plain Text", none⟩

instance : Inhabited Language := ⟨plaintext⟩

/-- Whether a language is not highlighted. -/
def isPlaintext (language : Language) : Bool :=
  language.key = plaintextKey

/-- Whether two languages count as the same: their keys alone decide. -/
def same (one other : Language) : Bool :=
  one.key = other.key

/-- A built-in language, supplied from installed libraries. -/
def ofBuiltin (auto : Bool) (language : Builtin) : Language :=
  ⟨language.grammarName, language.displayName, some (.installed language auto)⟩

/-- A language, described for a log. -/
def describe (language : Language) : String :=
  describeParts "LanguageDescriptor"
    [("key", Text.quote language.key), ("name", Text.quote language.name)]

end Language

end CodeMarkup
